import IdentityHub.Lib.Text
import Mathlib.Data.List.DropRight

/-!
# Web URLs

Where a request with an `http` or `https` URL goes, as the URL standard has it: how its
parser finds the scheme and the host in a text, up to the path, where it cannot fail any
more. What may stand for a host is the standard's host parser, which is a parameter.

A text that is continued after a slash is the same URL with a longer path, or none: that
slash ends the authority, if nothing before it does. The parser ignores white space at the
ends of a text. White space that the longer text has in its middle is not ignored, and is
nothing a host or a port may have.
-/

namespace WebUrl

/-- A C0 control or a space. -/
def isC0OrSpace (c : Char) : Bool := c.toNat ≤ 0x20

def isTabOrNewline (c : Char) : Bool := c = '\t' || c = '\n' || c = '\r'

/-- The input without what is ignored in it. -/
def clean (s : List Char) : List Char :=
  ((s.dropWhile isC0OrSpace).rdropWhile isC0OrSpace).filter (fun c => !isTabOrNewline c)

def isSchemeChar (c : Char) : Bool := c.isAlphanum || c = '+' || c = '-' || c = '.'

/-- The scheme, lower-cased, and what stands after its colon. -/
def splitScheme (s : List Char) : Option (List Char × List Char) :=
  match s, s.dropWhile isSchemeChar with
  | first :: _, colon :: rest =>
      if first.isAlpha = true ∧ colon = ':' then
        some ((s.takeWhile isSchemeChar).map Char.toLower, rest)
      else none
  | _, _ => none

/-- The scheme of a text that has one. -/
def scheme (s : String) : Option String :=
  (splitScheme (clean s.toList)).map (fun parts => String.ofList parts.1)

def isSlash (c : Char) : Bool := c = '/' || c = '\\'

def endsAuthority (c : Char) : Bool := isSlash c || c = '?' || c = '#'

/-- With these schemes any number of slashes stands before the authority. -/
def authority (s : List Char) : List Char :=
  (s.dropWhile isSlash).takeWhile (fun c => !endsAuthority c)

/-- The credentials end with the last `@`. -/
def dropCredentials (authority : List Char) : List Char := authority.rtakeWhile (· != '@')

/-- The host, and the port if there is a colon, outside brackets, before it. -/
def splitPort (insideBrackets : Bool) : List Char → List Char × Option (List Char)
  | [] => ([], none)
  | c :: rest =>
      if c = ':' ∧ insideBrackets = false then ([], some rest)
      else
        let parts := splitPort (if c = '[' then true else if c = ']' then false else insideBrackets)
          rest
        (c :: parts.1, parts.2)

def decimal (digits : List Char) : ℕ :=
  digits.foldl (fun n c => 10 * n + (c.toNat - '0'.toNat)) 0

def portValid (port : List Char) : Bool := port.all Char.isDigit && decimal port ≤ 65535

/-- What a host parser makes of the text between credentials and port. White space is
never part of a host. -/
structure HostParser where
  parse : List Char → Option String
  rejects : ∀ host c, c ∈ host → isC0OrSpace c = true → parse host = none

variable (hosts : HostParser)

/-- The host of an authority. -/
def hostOf (authority : List Char) : Option String :=
  let (host, port) := splitPort false (dropCredentials authority)
  if host ≠ [] ∧ (port.elim true portValid) = true then hosts.parse host else none

/-- Scheme and host of an `http` or `https` URL. -/
def parse (s : String) : Option (String × String) :=
  (splitScheme (clean s.toList)).bind (fun parts =>
    (hostOf hosts (authority parts.2)).map (fun host => (String.ofList parts.1, host)))

variable {hosts} in
theorem scheme_of_parse {s name host : String} (h : parse hosts s = some (name, host)) :
    scheme s = some name := by
  obtain ⟨parts, hparts, hmap⟩ := Option.bind_eq_some_iff.mp h
  obtain ⟨_, -, heq⟩ := Option.map_eq_some_iff.mp hmap
  obtain ⟨rfl, -⟩ := Prod.mk.inj heq
  rw [scheme, hparts]
  rfl

/-! ## Continued texts -/

section

variable {α : Type*} {p : α → Bool} {s t : List α}

/-- What was kept of a text is kept of a longer one. -/
theorem dropWhile_append_of_ne_nil (h : s.dropWhile p ≠ []) :
    (s ++ t).dropWhile p = s.dropWhile p ++ t := by
  have hne : (s.dropWhile p).isEmpty = false := by simpa using h
  rw [List.dropWhile_append, hne]
  rfl

theorem takeWhile_append_of_ne_nil (h : s.dropWhile p ≠ []) :
    (s ++ t).takeWhile p = s.takeWhile p := by
  have hshort : (s.takeWhile p).length ≠ s.length := by
    intro hlength
    apply h
    have hall := List.takeWhile_append_dropWhile (p := p) (l := s)
    have hsum := congrArg List.length hall
    rw [List.length_append] at hsum
    exact List.length_eq_zero_iff.mp (by omega)
  rw [List.takeWhile_append, if_neg hshort]

/-- Nothing is dropped from the end of a text that ends with something to keep. -/
theorem rdropWhile_append_of_forall (ht : t ≠ []) (hkeep : ∀ a ∈ t, p a = false) :
    (s ++ t).rdropWhile p = s ++ t := by
  rw [List.rdropWhile_eq_self_iff]
  intro _
  rw [List.getLast_append_of_ne_nil _ ht, hkeep _ (List.getLast_mem ht)]
  exact Bool.false_ne_true

end

variable {hosts}

/-- What is ignored at the end of a text stands in the middle of a longer one. -/
theorem clean_append {s t : List Char} (hs : clean s ≠ []) (ht : t ≠ [])
    (hkeep : ∀ c ∈ t, isC0OrSpace c = false) :
    ∃ gap, (∀ c ∈ gap, isC0OrSpace c = true) ∧ clean (s ++ t) = clean s ++ (gap ++ t) := by
  have hstart : s.dropWhile isC0OrSpace ≠ [] := by
    intro hnil
    apply hs
    rw [clean, hnil, List.rdropWhile_nil, List.filter_nil]
  have htab : t.filter (fun c => !isTabOrNewline c) = t := by
    rw [List.filter_eq_self]
    intro c hc
    have hlarge : ¬ c.toNat ≤ 0x20 := of_decide_eq_false (hkeep c hc)
    have hne : ∀ d : Char, d.toNat ≤ 0x20 → c ≠ d := by
      rintro d hd rfl
      exact hlarge hd
    simp [isTabOrNewline, hne '\t' (by decide), hne '\n' (by decide), hne '\r' (by decide)]
  refine ⟨((s.dropWhile isC0OrSpace).rtakeWhile isC0OrSpace).filter (fun c => !isTabOrNewline c),
    ?_, ?_⟩
  · intro c hc
    exact List.mem_rtakeWhile_imp (List.mem_of_mem_filter hc)
  · rw [clean, dropWhile_append_of_ne_nil hstart, rdropWhile_append_of_forall ht hkeep]
    conv_lhs => rw [← List.rdropWhile_append_rtakeWhile (p := isC0OrSpace) (l := s.dropWhile isC0OrSpace)]
    rw [List.filter_append, List.filter_append, htab, List.append_assoc]
    rfl

theorem splitScheme_append {s t scheme rest : List Char} (h : splitScheme s = some (scheme, rest)) :
    splitScheme (s ++ t) = some (scheme, rest ++ t) := by
  unfold splitScheme at h
  split at h
  · rename_i first s' colon rest' hcolon
    have hne : (first :: s').dropWhile isSchemeChar ≠ [] := by
      rw [hcolon]
      exact List.cons_ne_nil _ _
    have hcolon' : (first :: (s' ++ t)).dropWhile isSchemeChar = colon :: (rest' ++ t) := by
      rw [← List.cons_append, dropWhile_append_of_ne_nil hne, hcolon, List.cons_append]
    split at h
    · rename_i hscheme
      cases h
      unfold splitScheme
      rw [List.cons_append, hcolon']
      dsimp only
      rw [if_pos hscheme, ← List.cons_append, takeWhile_append_of_ne_nil hne]
    · cases h
  · cases h

/-- The authority of the longer text is the same, up to the white space that was ignored
at the end of the shorter one. -/
theorem authority_append {s gap tail : List Char} (hs : authority s ≠ [])
    (hgap : ∀ c ∈ gap, isC0OrSpace c = true) :
    authority (s ++ (gap ++ '/' :: tail)) = authority s ∨
      authority (s ++ (gap ++ '/' :: tail)) = authority s ++ gap := by
  have hstart : s.dropWhile isSlash ≠ [] := by
    intro hnil
    apply hs
    rw [authority, hnil, List.takeWhile_nil]
  have hgapEnds : ∀ c ∈ gap, (!endsAuthority c) = true := by
    intro c hc
    have hsmall : c.toNat ≤ 0x20 := of_decide_eq_true (hgap c hc)
    have hne : ∀ d : Char, 0x20 < d.toNat → c ≠ d := by
      rintro d hd rfl
      omega
    simp [endsAuthority, isSlash, hne '/' (by decide), hne '\\' (by decide), hne '?' (by decide),
      hne '#' (by decide)]
  have hslash : ('/' :: tail).takeWhile (fun c => !endsAuthority c) = [] := rfl
  rw [authority, dropWhile_append_of_ne_nil hstart]
  by_cases hopen : (s.dropWhile isSlash).dropWhile (fun c => !endsAuthority c) = []
  · refine Or.inr ?_
    have hall := List.dropWhile_eq_nil_iff.mp hopen
    rw [List.takeWhile_append_of_pos hall, List.takeWhile_append_of_pos hgapEnds, hslash,
      List.append_nil, authority, List.takeWhile_eq_self_iff.mpr hall]
  · exact Or.inl (takeWhile_append_of_ne_nil hopen)

theorem dropCredentials_append {s gap : List Char} (hgap : ∀ c ∈ gap, isC0OrSpace c = true) :
    dropCredentials (s ++ gap) = dropCredentials s ++ gap := by
  have hnone : ∀ c ∈ gap.reverse, (c != '@') = true := by
    intro c hc
    have hsmall : c.toNat ≤ 0x20 := of_decide_eq_true (hgap c (List.mem_reverse.mp hc))
    rw [bne_iff_ne]
    rintro rfl
    exact absurd hsmall (by decide)
  rw [dropCredentials, List.rtakeWhile, List.reverse_append, List.takeWhile_append_of_pos hnone,
    List.reverse_append, List.reverse_reverse]
  rfl

theorem isC0OrSpace_of_isAlphanum {c : Char} (h : c.isAlphanum = true) :
    isC0OrSpace c = false := by
  have hrange := Text.toNat_of_isAlphanum h
  exact decide_eq_false (by omega)

theorem splitPort_of_not_mem {insideBrackets : Bool} {s : List Char} (h : ':' ∉ s) :
    splitPort insideBrackets s = (s, none) := by
  induction s generalizing insideBrackets with
  | nil => rfl
  | cons c s ih =>
      have hne : ¬ (c = ':' ∧ insideBrackets = false) := by
        rintro ⟨rfl, -⟩
        exact h List.mem_cons_self
      rw [splitPort, if_neg hne, ih (fun hmem => h (List.mem_cons_of_mem _ hmem))]

/-- What follows an authority with a port belongs to the port. -/
theorem splitPort_append_of_port {insideBrackets : Bool} {s t host port : List Char}
    (h : splitPort insideBrackets s = (host, some port)) :
    splitPort insideBrackets (s ++ t) = (host, some (port ++ t)) := by
  induction s generalizing insideBrackets host with
  | nil => cases h
  | cons c s ih =>
      rw [splitPort] at h
      rw [List.cons_append, splitPort]
      split at h
      · rename_i hcolon
        cases h
        rw [if_pos hcolon]
      · rename_i hcolon
        obtain ⟨rfl, hport⟩ := Prod.mk.inj h
        rw [if_neg hcolon, ih (Prod.ext rfl hport)]

/-- Without a port it belongs to the host. -/
theorem splitPort_append_of_no_port {insideBrackets : Bool} {s t host : List Char} (ht : ':' ∉ t)
    (h : splitPort insideBrackets s = (host, none)) :
    splitPort insideBrackets (s ++ t) = (host ++ t, none) := by
  induction s generalizing insideBrackets host with
  | nil =>
      cases h
      exact splitPort_of_not_mem ht
  | cons c s ih =>
      rw [splitPort] at h
      rw [List.cons_append, splitPort]
      split at h
      · cases h
      · rename_i hcolon
        obtain ⟨rfl, hport⟩ := Prod.mk.inj h
        rw [if_neg hcolon, ih (Prod.ext rfl hport), List.cons_append]

theorem hostOf_eq_some {s : List Char} {host : String} :
    hostOf hosts s = some host ↔
      (splitPort false (dropCredentials s)).1 ≠ [] ∧
        (∀ port, (splitPort false (dropCredentials s)).2 = some port → portValid port = true) ∧
          hosts.parse (splitPort false (dropCredentials s)).1 = some host := by
  unfold hostOf
  obtain ⟨text, port⟩ := splitPort false (dropCredentials s)
  dsimp only
  rw [← and_assoc]
  cases port with
  | none => by_cases h : text = [] <;> simp [h]
  | some port => by_cases h : text ≠ [] ∧ portValid port = true <;> simp [h]

/-- White space after an authority makes it none. -/
theorem hostOf_append {s gap : List Char} {host : String}
    (hgap : ∀ c ∈ gap, isC0OrSpace c = true) (h : hostOf hosts (s ++ gap) = some host) :
    gap = [] := by
  by_contra hne
  obtain ⟨c, hc⟩ := List.exists_mem_of_ne_nil gap hne
  obtain ⟨-, hport, hhost⟩ := hostOf_eq_some.mp h
  rw [dropCredentials_append hgap] at hport hhost
  cases hsplit : splitPort false (dropCredentials s) with
  | mk text port =>
  cases port with
  | some port =>
      have hvalid := hport (port ++ gap) (by rw [splitPort_append_of_port hsplit])
      have hdigit : c.isDigit = true := by
        rw [portValid, Bool.and_eq_true, List.all_eq_true] at hvalid
        exact hvalid.1 c (List.mem_append_right _ hc)
      have halphanum : c.isAlphanum = true := by rw [Char.isAlphanum, hdigit, Bool.or_true]
      have hspace := hgap c hc
      rw [isC0OrSpace_of_isAlphanum halphanum] at hspace
      cases hspace
  | none =>
      have hcolon : ':' ∉ gap := fun hmem => absurd (hgap ':' hmem) (by decide)
      rw [splitPort_append_of_no_port hcolon hsplit,
        hosts.rejects _ c (List.mem_append_right _ hc) (hgap c hc)] at hhost
      cases hhost

/-- What the parser reads of a text that is continued after a slash. -/
theorem clean_continued {s tail : String} (hs : clean s.toList ≠ [])
    (htail : ∀ c ∈ tail.toList, isC0OrSpace c = false) :
    ∃ gap, (∀ c ∈ gap, isC0OrSpace c = true) ∧
      clean (s ++ "/" ++ tail).toList = clean s.toList ++ (gap ++ '/' :: tail.toList) := by
  have htext : (s ++ "/" ++ tail).toList = s.toList ++ '/' :: tail.toList := by
    rw [String.toList_append, String.toList_append, List.append_assoc]
    rfl
  rw [htext]
  exact clean_append hs (List.cons_ne_nil _ _) (List.forall_mem_cons.mpr ⟨rfl, htail⟩)

theorem clean_ne_nil {s : String} {parts : List Char × List Char}
    (h : splitScheme (clean s.toList) = some parts) : clean s.toList ≠ [] := by
  intro hnil
  rw [hnil] at h
  cases h

theorem scheme_append {s tail name : String} (htail : ∀ c ∈ tail.toList, isC0OrSpace c = false)
    (h : scheme s = some name) : scheme (s ++ "/" ++ tail) = some name := by
  obtain ⟨⟨text, rest⟩, hscheme, rfl⟩ := Option.map_eq_some_iff.mp h
  obtain ⟨gap, -, hlonger⟩ := clean_continued (clean_ne_nil hscheme) htail
  rw [scheme, hlonger, splitScheme_append hscheme]
  rfl

/-- **A URL that is continued after a slash** goes where it went, if it goes anywhere. -/
theorem parse_append {s tail : String} {u v : String × String}
    (htail : ∀ c ∈ tail.toList, isC0OrSpace c = false) (h : parse hosts s = some u)
    (h' : parse hosts (s ++ "/" ++ tail) = some v) : v = u := by
  obtain ⟨⟨scheme, rest⟩, hscheme, hmap⟩ := Option.bind_eq_some_iff.mp h
  obtain ⟨host, hhost, rfl⟩ := Option.map_eq_some_iff.mp hmap
  dsimp only at hhost ⊢
  have hauthority : authority rest ≠ [] := by
    intro hnil
    rw [hnil] at hhost
    exact (hostOf_eq_some.mp hhost).1 rfl
  obtain ⟨gap, hgap, hlonger⟩ := clean_continued (clean_ne_nil hscheme) htail
  rw [parse, hlonger, splitScheme_append hscheme, Option.bind_some] at h'
  obtain ⟨host', hhost', rfl⟩ := Option.map_eq_some_iff.mp h'
  dsimp only at hhost' ⊢
  have hsame : hostOf hosts (authority rest) = some host' := by
    rcases authority_append hauthority hgap with heq | heq
    · rwa [heq] at hhost'
    · rw [heq] at hhost'
      rwa [hostOf_append hgap hhost', List.append_nil] at hhost'
  rw [hhost] at hsame
  rw [Option.some_inj.mp hsame]

end WebUrl
