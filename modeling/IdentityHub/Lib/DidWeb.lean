import IdentityHub.Lib.Text

/-!
# `did:web` resolution and URL normalisation

A `did:web` identifier names a host and a path; its document lives under a URL
made of the two. A client normalises that URL before it asks for it: the host is
percent-decoded and lower-cased, the scheme's default port is dropped, and the
`.` and `..` segments of the path are removed. `document` is the normalised URL.
-/

namespace DidWeb

/-- `%3A`, in either hex case, read as `:`. -/
def readColon : List Char → List Char
  | '%' :: '3' :: 'A' :: rest => ':' :: readColon rest
  | '%' :: '3' :: 'a' :: rest => ':' :: readColon rest
  | c :: rest => c :: readColon rest
  | [] => []

def didWebPrefix : List Char := "did:web:".toList

/-- The `:`-separated segments after `did:web:`. -/
def segments (did : String) : Option (List (List Char)) :=
  (Text.stripPrefix didWebPrefix did.toList).map (fun rest => rest.splitOn ':')

/-- Host and path of the document's URL, as text after `://`. -/
def location (did : String) : Option (List Char) :=
  match segments did with
  | some [host] => some (readColon host ++ "/.well-known/did.json".toList)
  | some (host :: path) =>
      some (readColon host ++ '/' :: ['/'].intercalate (path ++ ["did.json".toList]))
  | _ => none

inductive Scheme where
  | http
  | https
deriving DecidableEq

def Scheme.text : Scheme → List Char
  | .http => "http".toList
  | .https => "https".toList

def Scheme.defaultPort : Scheme → ℕ
  | .http => 80
  | .https => 443

/-- The URL a `did:web` identifier's document is fetched from. -/
def toUrl (scheme : Scheme) (did : String) : Option String :=
  (location did).map (fun text => String.ofList (scheme.text ++ "://".toList ++ text))

/-! ## Normalisation -/

def hexValue (c : Char) : ℕ :=
  if c.isDigit then c.toNat - '0'.toNat
  else if c.isUpper then c.toNat - 'A'.toNat + 10
  else c.toNat - 'a'.toNat + 10

/-- The bytes of a percent-encoded text. -/
def percentDecode : List Char → List UInt8
  | '%' :: h :: l :: rest =>
      if Text.isHexDigit h && Text.isHexDigit l then
        UInt8.ofNat (hexValue h * 16 + hexValue l) :: percentDecode rest
      else String.utf8EncodeChar '%' ++ percentDecode (h :: l :: rest)
  | c :: rest => String.utf8EncodeChar c ++ percentDecode rest
  | [] => []

/-- An ASCII capital as the small letter, any other byte as it is. -/
def lowerByte (b : UInt8) : UInt8 := if 65 ≤ b && b ≤ 90 then b + 32 else b

/-- A port: nothing, or a number. -/
def readPort (text : List Char) : Option (Option ℕ) :=
  if text = [] then some none
  else if text.all Char.isDigit then
    some (some (text.foldl (fun n c => n * 10 + (c.toNat - '0'.toNat)) 0))
  else none

/-- Remove the `.` and `..` segments of a path. -/
def removeDots (acc : List (List Char)) : List (List Char) → List (List Char)
  | [] => acc
  | ['.'] :: rest => removeDots acc rest
  | ['.', '.'] :: rest => removeDots acc.dropLast rest
  | segment :: rest => removeDots (acc ++ [segment]) rest

structure NormalUrl where
  scheme : Scheme
  host : List UInt8
  port : Option ℕ
  path : List (List Char)
deriving DecidableEq

/-- Normalise the text after `://`; none when its port is not a number. -/
def normalise (scheme : Scheme) (text : List Char) : Option NormalUrl :=
  let authority := text.takeWhile (· != '/')
  let path := (text.dropWhile (· != '/')).drop 1
  (readPort ((authority.dropWhile (· != ':')).drop 1)).map (fun port =>
    { scheme := scheme
      host := (percentDecode (authority.takeWhile (· != ':'))).map lowerByte
      port := if port = some scheme.defaultPort then none else port
      path := removeDots [] (path.splitOn '/') })

/-- The normalised URL an identifier's document is fetched from. -/
def document (scheme : Scheme) (did : String) : Option NormalUrl :=
  (location did).bind (normalise scheme)

end DidWeb
