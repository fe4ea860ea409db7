import IdentityHub.Lib.Json

/-!
# A text form of JSON values with an exact parser

Every value has one text, and parsing that text gives the value back
(`parse_print`). The form is a prefix code: a tag, then counts in unary, then
the contents, so a parser never looks ahead. It is not the JSON grammar; it is a
concrete serialiser for which the round trip is a theorem.
-/

namespace Json.Text

open Json (Value Number)

/-- A count in unary, closed by a colon. -/
def printCount (n : ℕ) : List Char := List.replicate n '|' ++ [':']

def printString (s : String) : List Char := printCount s.toList.length ++ s.toList

def printInt (z : ℤ) : List Char :=
  match z with
  | .ofNat n => '+' :: printCount n
  | .negSucc n => '-' :: printCount n

def printNumber : Number → List Char
  | .posInt n => 'u' :: printCount n.toNat
  | .negInt z => 'i' :: printInt z
  | .float q => 'q' :: (printInt q.num ++ printCount q.den)

mutual

def print : Value → List Char
  | .null => ['n']
  | .bool true => ['t']
  | .bool false => ['f']
  | .number n => '#' :: printNumber n
  | .string s => '"' :: printString s
  | .array items => '[' :: (printCount items.length ++ printItems items)
  | .object fields => '{' :: (printCount fields.length ++ printFields fields)

def printItems : List Value → List Char
  | [] => []
  | v :: vs => print v ++ printItems vs

def printFields : List (String × Value) → List Char
  | [] => []
  | (k, v) :: fs => printString k ++ print v ++ printFields fs

end

/-! ## The parser -/

def parseCount : List Char → Option (ℕ × List Char)
  | '|' :: r => (parseCount r).map (fun p => (p.1 + 1, p.2))
  | ':' :: r => some (0, r)
  | _ => none

def parseString (r : List Char) : Option (String × List Char) :=
  (parseCount r).map (fun p => (String.ofList (p.2.take p.1), p.2.drop p.1))

def parseInt : List Char → Option (ℤ × List Char)
  | '+' :: r => (parseCount r).map (fun p => (.ofNat p.1, p.2))
  | '-' :: r => (parseCount r).map (fun p => (.negSucc p.1, p.2))
  | _ => none

def parseNumber : List Char → Option (Number × List Char)
  | 'u' :: r => (parseCount r).map (fun p => (.posInt (UInt64.ofNat p.1), p.2))
  | 'i' :: r => (parseInt r).map (fun p => (.negInt p.1, p.2))
  | 'q' :: r =>
      (parseInt r).bind (fun p =>
        (parseCount p.2).map (fun d => (.float (mkRat p.1 d.1), d.2)))
  | _ => none

mutual

/-- Parse one value; the depth bounds the nesting and the number of members
looked at. -/
def parseValue : ℕ → List Char → Option (Value × List Char)
  | 0, _ => none
  | depth + 1, r =>
    match r with
    | 'n' :: r => some (.null, r)
    | 't' :: r => some (.bool true, r)
    | 'f' :: r => some (.bool false, r)
    | '#' :: r => (parseNumber r).map (fun p => (.number p.1, p.2))
    | '"' :: r => (parseString r).map (fun p => (.string p.1, p.2))
    | '[' :: r =>
        (parseCount r).bind (fun n =>
          (parseItems depth n.1 n.2).map (fun p => (.array p.1, p.2)))
    | '{' :: r =>
        (parseCount r).bind (fun n =>
          (parseFields depth n.1 n.2).map (fun p => (.object p.1, p.2)))
    | _ => none

def parseItems : ℕ → ℕ → List Char → Option (List Value × List Char)
  | _, 0, r => some ([], r)
  | 0, _ + 1, _ => none
  | depth + 1, n + 1, r =>
      (parseValue depth r).bind (fun v =>
        (parseItems depth n v.2).map (fun vs => (v.1 :: vs.1, vs.2)))

def parseFields : ℕ → ℕ → List Char → Option (List (String × Value) × List Char)
  | _, 0, r => some ([], r)
  | 0, _ + 1, _ => none
  | depth + 1, n + 1, r =>
      (parseString r).bind (fun k =>
        (parseValue depth k.2).bind (fun v =>
          (parseFields depth n v.2).map (fun fs => ((k.1, v.1) :: fs.1, fs.2))))

end

/-- Parse a text that holds one value and nothing else. -/
def parse (text : List Char) : Option Value :=
  match parseValue text.length text with
  | some (v, []) => some v
  | _ => none

/-! ## The round trip -/

theorem parseCount_print (n : ℕ) (r : List Char) :
    parseCount (printCount n ++ r) = some (n, r) := by
  induction n with
  | zero => rfl
  | succ n ih =>
      show (parseCount (printCount n ++ r)).map _ = _
      rw [ih]
      rfl

theorem parseString_print (s : String) (r : List Char) :
    parseString (printString s ++ r) = some (s, r) := by
  rw [parseString, printString, List.append_assoc, parseCount_print, Option.map_some]
  simp

theorem parseInt_print (z : ℤ) (r : List Char) : parseInt (printInt z ++ r) = some (z, r) := by
  cases z with
  | ofNat n =>
      show (parseCount (printCount n ++ r)).map _ = _
      rw [parseCount_print]
      rfl
  | negSucc n =>
      show (parseCount (printCount n ++ r)).map _ = _
      rw [parseCount_print]
      rfl

theorem parseNumber_print (n : Number) (r : List Char) :
    parseNumber (printNumber n ++ r) = some (n, r) := by
  cases n with
  | posInt n =>
      show (parseCount (printCount n.toNat ++ r)).map _ = _
      rw [parseCount_print, Option.map_some, UInt64.ofNat_toNat]
  | negInt z =>
      show (parseInt (printInt z ++ r)).map _ = _
      rw [parseInt_print]
      rfl
  | float q =>
      show (parseInt (printInt q.num ++ printCount q.den ++ r)).bind _ = _
      rw [List.append_assoc, parseInt_print, Option.bind_some, parseCount_print,
        Option.map_some, Rat.mkRat_self]

/-- A value's text is long enough to parse it: each nesting level and each
member costs at least a character. -/
theorem print_ne_nil (v : Value) : 0 < (print v).length := by
  cases v with
  | bool b => cases b <;> simp [print]
  | _ => simp [print]

mutual

theorem parseValue_print (v : Value) (depth : ℕ) (r : List Char)
    (h : (print v).length ≤ depth) : parseValue depth (print v ++ r) = some (v, r) := by
  cases depth with
  | zero => exact absurd (print_ne_nil v) (by omega)
  | succ depth =>
      cases v with
      | null => simp [print, parseValue]
      | bool b => cases b <;> simp [print, parseValue]
      | number n => simp [print, parseValue, parseNumber_print]
      | string s => simp [print, parseValue, parseString_print]
      | array items =>
          have hlen : (printItems items).length + items.length ≤ depth := by
            simp only [print, List.length_cons, List.length_append, printCount,
              List.length_replicate, List.length_nil] at h
            omega
          simp [print, parseValue, parseCount_print, parseItems_print items depth r hlen]
      | object fields =>
          have hlen : (printFields fields).length + fields.length ≤ depth := by
            simp only [print, List.length_cons, List.length_append, printCount,
              List.length_replicate, List.length_nil] at h
            omega
          simp [print, parseValue, parseCount_print, parseFields_print fields depth r hlen]

theorem parseItems_print (vs : List Value) (depth : ℕ) (r : List Char)
    (h : (printItems vs).length + vs.length ≤ depth) :
    parseItems depth vs.length (printItems vs ++ r) = some (vs, r) := by
  cases vs with
  | nil => simp [parseItems, printItems]
  | cons v vs =>
      cases depth with
      | zero => simp at h
      | succ depth =>
          simp only [printItems, List.length_append, List.length_cons] at h
          simp [parseItems, printItems, parseValue_print v depth _ (by omega),
            parseItems_print vs depth r (by omega)]

theorem parseFields_print (fs : List (String × Value)) (depth : ℕ) (r : List Char)
    (h : (printFields fs).length + fs.length ≤ depth) :
    parseFields depth fs.length (printFields fs ++ r) = some (fs, r) := by
  cases fs with
  | nil => simp [parseFields, printFields]
  | cons f fs =>
      obtain ⟨k, v⟩ := f
      cases depth with
      | zero => simp at h
      | succ depth =>
          simp only [printFields, List.length_append, List.length_cons] at h
          simp [parseFields, printFields, parseString_print,
            parseValue_print v depth _ (by omega), parseFields_print fs depth r (by omega)]

end

/-- **Round trip.** -/
theorem parse_print (v : Value) : parse (print v) = some v := by
  have h := parseValue_print v (print v).length [] le_rfl
  rw [List.append_nil] at h
  rw [parse, h]

/-- One text stands for one value. -/
theorem print_injective : Function.Injective print := by
  intro v w h
  have := parse_print v
  rw [h, parse_print] at this
  exact (Option.some_inj.mp this).symm

end Json.Text
