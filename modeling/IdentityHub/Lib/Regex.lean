import IdentityHub.Lib.Text

/-!
# Regular expressions that are searched for

The fragment without alternation: characters of a class, greedy repetitions of a
class, sequences, options and named groups. `matchesAt` lists the matches at the front of
a text in the order of preference, so that a search answers with the first match at
the leftmost place where there is one.
-/

/-- A regular expression. -/
inductive Regex where
  | empty
  /-- A character of the class. -/
  | char (p : Char → Bool)
  /-- At least one character of the class, as many as possible. -/
  | many (p : Char → Bool)
  | seq (r r' : Regex)
  /-- The expression if possible, else nothing. -/
  | optional (r : Regex)
  | group (name : String) (r : Regex)

namespace Regex

/-- A literal text. -/
def text : List Char → Regex
  | [] => .empty
  | c :: cs => .seq (.char (· == c)) (text cs)

/-- What a match covers, what its groups cover, and what is left. -/
structure Match where
  covered : List Char
  groups : List (String × List Char)
  rest : List Char

/-- The non-empty runs of a class at the front of a text, longest first. -/
def runs (p : Char → Bool) : List Char → List Match
  | [] => []
  | c :: s =>
      if p c then
        (runs p s).map (fun m => { m with covered := c :: m.covered }) ++
          [{ covered := [c], groups := [], rest := s }]
      else []

/-- The matches at the front of a text, in the order of preference. -/
def matchesAt : Regex → List Char → List Match
  | .empty, s => [{ covered := [], groups := [], rest := s }]
  | .char _, [] => []
  | .char p, c :: s => if p c then [{ covered := [c], groups := [], rest := s }] else []
  | .many p, s => runs p s
  | .seq r r', s =>
      (r.matchesAt s).flatMap (fun m => (r'.matchesAt m.rest).map (fun m' =>
        { covered := m.covered ++ m'.covered
          groups := m.groups ++ m'.groups
          rest := m'.rest }))
  | .optional r, s => r.matchesAt s ++ [{ covered := [], groups := [], rest := s }]
  | .group name r, s =>
      (r.matchesAt s).map (fun m => { m with groups := (name, m.covered) :: m.groups })

/-- The leftmost match of a text. -/
def search (r : Regex) : List Char → Option Match
  | [] => (r.matchesAt []).head?
  | c :: s => (r.matchesAt (c :: s)).head?.or (search r s)

/-- `Captures::name`. -/
def Match.group (m : Match) (name : String) : Option (List Char) := m.groups.lookup name

variable {r r' : Regex} {s : List Char}

theorem matchesAt_text (cs s : List Char) :
    (text cs).matchesAt s = (Text.stripPrefix cs s).toList.map (fun rest =>
      { covered := cs, groups := [], rest := rest }) := by
  induction cs generalizing s with
  | nil => rfl
  | cons c cs ih =>
      cases s with
      | nil => rfl
      | cons d s =>
          have hstrip : Text.stripPrefix (c :: cs) (d :: s) =
              if d = c then Text.stripPrefix cs s else none := by
            simp only [Text.stripPrefix, List.isPrefixOf_cons_cons, List.length_cons,
              List.drop_succ_cons, Bool.and_eq_true, beq_iff_eq]
            by_cases hd : d = c
            · simp [hd]
            · simp [hd, Ne.symm hd]
          rw [text, matchesAt, matchesAt, hstrip]
          by_cases hd : d = c
          · subst hd
            cases hrest : Text.stripPrefix cs s with
            | none => simp [ih, hrest]
            | some rest => simp [ih, hrest]
          · simp [hd]

/-- The preferred run is the whole run. -/
theorem head?_runs (p : Char → Bool) (s : List Char) :
    (runs p s).head? =
      if s.takeWhile p = [] then none
      else some { covered := s.takeWhile p, groups := [], rest := s.dropWhile p } := by
  induction s with
  | nil => rfl
  | cons c s ih =>
      rw [runs, List.takeWhile_cons, List.dropWhile_cons]
      by_cases hc : p c = true
      · rw [if_pos hc, if_pos hc, if_pos hc, if_neg (List.cons_ne_nil _ _), List.head?_append,
          List.head?_map, ih]
        by_cases hs : s.takeWhile p = []
        · have hrest : s.dropWhile p = s := by
            have happend := List.takeWhile_append_dropWhile (p := p) (l := s)
            rwa [hs, List.nil_append] at happend
          rw [if_pos hs, hs, hrest]
          rfl
        · rw [if_neg hs]
          rfl
      · rw [if_neg hc, if_neg hc, if_pos rfl]
        rfl

/-- A sequence whose second part is optional matches as its first part does first. -/
theorem head?_seq_optional :
    ((Regex.seq r (.optional r')).matchesAt s).head? =
      (r.matchesAt s).head?.map (fun m =>
        let m' := ((Regex.optional r').matchesAt m.rest).head (by simp [matchesAt])
        { covered := m.covered ++ m'.covered, groups := m.groups ++ m'.groups, rest := m'.rest }) := by
  rw [matchesAt]
  cases hr : r.matchesAt s with
  | nil => rfl
  | cons m ms =>
      have hne : (Regex.optional r').matchesAt m.rest ≠ [] := by simp [matchesAt]
      obtain ⟨m', ms', hcons⟩ := List.exists_cons_of_ne_nil hne
      simp [hcons]

end Regex
