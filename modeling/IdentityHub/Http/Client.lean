import IdentityHub.Http.Outbound

/-!
# Requests of the shared HTTP client

What the hub sends and what it reads of an answer: the status, the two headers
it looks at, and the body, or why it could not be read.
-/

namespace IdentityHub

inductive HttpMethod where
  | get
  | post
deriving DecidableEq

inductive HttpBody where
  | empty
  | form (fields : List (String × String))
  | json (value : Json.Value)
deriving DecidableEq

structure HttpRequest where
  method : HttpMethod
  url : String
  headers : List (String × String)
  body : HttpBody
deriving DecidableEq

/-- A `GET` without further headers. -/
def HttpRequest.ofUrl (url : String) : HttpRequest where
  method := .get
  url := url
  headers := []
  body := .empty

structure HttpResponse where
  status : ℕ
  dpopNonce : Option String
  wwwAuthenticate : Option String
  body : Except String String

def HttpResponse.isSuccess (response : HttpResponse) : Bool :=
  200 ≤ response.status && response.status < 300

end IdentityHub
