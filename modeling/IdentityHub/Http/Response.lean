import Mathlib.Data.Nat.Notation

/-!
# Answers of the HTTP handlers
-/

namespace IdentityHub

/-- Status, body and `Location` of an answer. -/
structure Response where
  status : ℕ
  body : String := ""
  location : Option String := none
deriving DecidableEq

end IdentityHub
