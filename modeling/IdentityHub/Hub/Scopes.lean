import IdentityHub.Hub.Sts
import IdentityHub.Lib.Regex

/-!
# The scopes the default pattern recognises

A scope of the form `org.eclipse.dspace.dcp.vc.type:<type>[:<suffix>]` names a credential
type (`NamesType`). The matcher searches a scope for the pattern instead of
matching all of it, so it also finds a type in texts that are not of this form: in those
that hold the literal, followed by a character other than a colon, anywhere.
-/

namespace IdentityHub

/-- `DEFAULT_SCOPE_PATTERN`. -/
def defaultScopePattern : Regex :=
  .seq (Regex.text vcTypeAlias.toList)
    (.seq (.group "type" (.many (· != ':')))
      (.optional (.group "suffix" (.seq (.char (· == ':')) (.many (· != '\n'))))))

/-- `ScopeMatcher::credential_type`. -/
def scopeCredentialType (pattern : Regex) (scope : String) : Option String :=
  ((pattern.search scope.toList).bind (fun m => m.group "type")).map String.ofList

/-- The type after the literal at the front of a text. -/
def typeAfter (s : List Char) : Option (List Char) :=
  ((Text.stripPrefix vcTypeAlias.toList s).map (fun after => after.takeWhile (· != ':'))).filter
    (fun t => t ≠ [])

theorem captureType_cons (c : Char) (s : List Char) :
    captureType (c :: s) = (typeAfter (c :: s)).or (captureType s) := by
  rw [captureType, typeAfter]
  cases (Text.stripPrefix vcTypeAlias.toList (c :: s)).map
      (fun after => after.takeWhile (· != ':')) with
  | none => rfl
  | some t =>
      cases t with
      | nil => rfl
      | cons d ts => rfl

/-- The preferred match at the front of a text, and its group `type`. -/
theorem head?_defaultScopePattern (s : List Char) :
    (typeAfter s = none ∧ (defaultScopePattern.matchesAt s).head? = none) ∨
      ∃ m t, typeAfter s = some t ∧ (defaultScopePattern.matchesAt s).head? = some m ∧
        m.group "type" = some t := by
  rw [typeAfter, defaultScopePattern, Regex.matchesAt, Regex.matchesAt_text]
  cases Text.stripPrefix vcTypeAlias.toList s with
  | none => exact Or.inl ⟨rfl, rfl⟩
  | some after =>
      rw [Option.toList_some, List.map_singleton, List.flatMap_singleton, List.head?_map,
        Regex.head?_seq_optional, Regex.matchesAt, Regex.matchesAt, List.head?_map,
        Regex.head?_runs]
      by_cases ht : after.takeWhile (· != ':') = []
      · simp [ht]
      · simp [ht, Regex.Match.group]

/-- Searching for the pattern is `captureType`. -/
theorem search_defaultScopePattern (s : List Char) :
    (defaultScopePattern.search s).bind (fun m => m.group "type") = captureType s := by
  induction s with
  | nil =>
      rw [Regex.search, captureType]
      rcases head?_defaultScopePattern [] with ⟨-, hnone⟩ | ⟨m, t, hafter, -, -⟩
      · rw [hnone, Option.bind_none]
      · cases hafter
  | cons c s ih =>
      rw [Regex.search, captureType_cons]
      rcases head?_defaultScopePattern (c :: s) with ⟨hafter, hnone⟩ | ⟨m, t, hafter, hhead, hgroup⟩
      · rw [hafter, hnone, Option.none_or, Option.none_or, ih]
      · rw [hafter, hhead, Option.some_or, Option.some_or, Option.bind_some, hgroup]

theorem scopeCredentialType_default (scope : String) :
    scopeCredentialType defaultScopePattern scope = defaultScopeType scope := by
  rw [scopeCredentialType, search_defaultScopePattern, defaultScopeType]

/-! ## What is recognised -/

/-- The scope is of the form that names `t`: the literal and the type, and possibly
a colon and a suffix. -/
def NamesType (scope t : String) : Prop :=
  t ≠ "" ∧ ':' ∉ t.toList ∧
    (scope = vcTypeAlias ++ t ∨ ∃ suffix, suffix ≠ "" ∧ scope = vcTypeAlias ++ t ++ ":" ++ suffix)

/-- The literal stands somewhere in the scope, before a character other than a colon. -/
def HoldsAlias (scope : String) : Prop :=
  ∃ before c after, scope.toList = before ++ (vcTypeAlias.toList ++ c :: after) ∧ c ≠ ':'

theorem typeAfter_eq_none {s : List Char} :
    typeAfter s = none ↔ ∀ c after, s = vcTypeAlias.toList ++ c :: after → c = ':' := by
  unfold typeAfter
  rw [Option.filter_eq_none_iff]
  constructor
  · rintro h c after rfl
    have hstrip := Text.stripPrefix_eq_some.mpr
      (rfl : vcTypeAlias.toList ++ c :: after = vcTypeAlias.toList ++ c :: after)
    have hempty := h _ (by rw [hstrip, Option.map_some])
    by_contra hc
    simp [hc] at hempty
  · intro h t ht
    obtain ⟨after, hstrip, rfl⟩ := Option.map_eq_some_iff.mp ht
    have hs := Text.stripPrefix_eq_some.mp hstrip
    cases after with
    | nil => simp
    | cons c after => simp [h c after hs]

/-- Nothing is found exactly where the literal is nowhere followed by a type. -/
theorem captureType_eq_none {s : List Char} :
    captureType s = none ↔
      ∀ before c after, s = before ++ (vcTypeAlias.toList ++ c :: after) → c = ':' := by
  induction s with
  | nil =>
      refine ⟨fun _ before c after h => ?_, fun _ => rfl⟩
      have hlength := congrArg List.length h
      simp at hlength
  | cons d s ih =>
      rw [captureType_cons, Option.or_eq_none_iff, typeAfter_eq_none, ih]
      constructor
      · rintro ⟨hhere, hlater⟩ before c after h
        cases before with
        | nil => exact hhere c after h
        | cons _ before => exact hlater before c after (List.cons.inj h).2
      · intro h
        refine ⟨fun c after hs => h [] c after hs, fun before c after hs => ?_⟩
        exact h (d :: before) c after (by rw [hs, List.cons_append])

theorem defaultScopeType_eq_none {scope : String} :
    defaultScopeType scope = none ↔ ¬ HoldsAlias scope := by
  rw [defaultScopeType, Option.map_eq_none_iff, captureType_eq_none]
  constructor
  · rintro h ⟨before, c, after, hscope, hc⟩
    exact hc (h before c after hscope)
  · intro h before c after hscope
    by_contra hc
    exact h ⟨before, c, after, hscope, hc⟩

/-- A scope of the form yields its type. -/
theorem defaultScopeType_of_namesType {scope t : String} (h : NamesType scope t) :
    defaultScopeType scope = some t := by
  obtain ⟨hne, hcolon, hscope⟩ := h
  have hne' : t.toList ≠ [] := fun hnil => hne (String.toList_eq_nil_iff.mp hnil)
  obtain ⟨after, htext, hafter⟩ : ∃ after, scope.toList = vcTypeAlias.toList ++ (t.toList ++ after) ∧
      (after = [] ∨ ∃ rest, after = ':' :: rest) := by
    rcases hscope with rfl | ⟨suffix, -, rfl⟩
    · exact ⟨[], by rw [String.toList_append, List.append_nil], Or.inl rfl⟩
    · refine ⟨':' :: suffix.toList, ?_, Or.inr ⟨suffix.toList, rfl⟩⟩
      rw [String.toList_append, String.toList_append, String.toList_append, List.append_assoc,
        List.append_assoc]
      rfl
  rw [defaultScopeType, htext, captureType_alias hne' hcolon hafter, Option.map_some,
    String.ofList_toList]

/-- **Which scopes the matcher gets right.** It recognises exactly the form where the
scope is of the form, or does not hold the literal before a type anywhere. -/
theorem scopeCredentialType_exact_iff (scope : String) :
    (∀ t, scopeCredentialType defaultScopePattern scope = some t ↔ NamesType scope t) ↔
      (∃ t, NamesType scope t) ∨ ¬ HoldsAlias scope := by
  rw [scopeCredentialType_default, ← defaultScopeType_eq_none]
  constructor
  · intro h
    cases htype : defaultScopeType scope with
    | none => exact Or.inr rfl
    | some t => exact Or.inl ⟨t, (h t).mp htype⟩
  · rintro (⟨t, ht⟩ | hnone) t'
    · have htype := defaultScopeType_of_namesType ht
      refine ⟨fun h => ?_, defaultScopeType_of_namesType⟩
      rw [htype] at h
      cases h
      exact ht
    · refine ⟨fun h => ?_, defaultScopeType_of_namesType⟩
      rw [hnone] at h
      cases h

/-- A text before the literal is not looked at. -/
theorem scopeCredentialType_too_much :
    ¬ ∀ scope t, scopeCredentialType defaultScopePattern scope = some t ↔ NamesType scope t := by
  intro h
  have htype : scopeCredentialType defaultScopePattern
      "not-org.eclipse.dspace.dcp.vc.type:MembershipCredential" = some "MembershipCredential" := by
    rw [scopeCredentialType_default]
    decide
  obtain ⟨-, -, hscope⟩ := (h _ _).mp htype
  rcases hscope with hscope | ⟨suffix, -, hscope⟩
  · exact absurd hscope (by decide)
  · have hfirst := congrArg (fun s : String => s.toList.head?) hscope
    simp [String.toList_append, vcTypeAlias] at hfirst

end IdentityHub
