import IdentityHub.Wallet.Proofs
import Mathlib.Data.List.DropRight

/-!
# Where an issuer publishes its metadata

An issuer identifier is a scheme, an authority and a path (`IssuerUrl`). Its metadata
are at the same origin, with the well-known segment before the path, which OID4VCI keeps as it
is and RFC 8414 without the slash at its end (`IssuerUrl.wellKnown`). The function gets there by
trimming all slashes at the end, and it does not look for a query or a fragment: it
is right for the identifiers without these that do not end in two slashes.
-/

namespace IdentityHub.Wallet

/-- The parts of an identifier: what is before the first `://`, then the text up to
the next slash, then the rest. -/
structure IssuerUrl (issuer : String) where
  scheme : List Char
  authority : List Char
  path : List Char
  text : issuer.toList = scheme ++ ("://".toList ++ (authority ++ path))
  first : ∀ n < scheme.length, ¬ "://".toList <+: issuer.toList.drop n
  host : authority ≠ [] ∧ '/' ∉ authority
  rooted : path = [] ∨ path.head? = some '/'

/-- Neither a query nor a fragment. -/
def PathOnly (issuer : String) : Prop := '?' ∉ issuer.toList ∧ '#' ∉ issuer.toList

/-- The path as the metadata document `name` is found under. -/
def metadataPath (name : String) (path : List Char) : List Char :=
  if name = credentialIssuerWellKnown then if path = ['/'] then [] else path
  else if path.getLast? = some '/' then path.dropLast
  else path

/-- The issuer's origin, the segment, and then `tail`. -/
def IssuerUrl.withTail {issuer : String} (u : IssuerUrl issuer) (name : String)
    (tail : List Char) : String :=
  String.ofList u.scheme ++ "://" ++ String.ofList u.authority ++ "/.well-known/" ++ name ++
    String.ofList tail

/-- The well-known URL of an issuer. -/
def IssuerUrl.wellKnown {issuer : String} (u : IssuerUrl issuer) (name : String) : String :=
  u.withTail name (metadataPath name u.path)

/-- What `well_known_url` is to answer: the well-known URL of an identifier that has the
form, and an error otherwise. -/
def WellKnownExact (issuer name : String) : Prop :=
  (∀ u : IssuerUrl issuer, PathOnly issuer → wellKnownUrl issuer name = .ok (u.wellKnown name)) ∧
    (¬ (Nonempty (IssuerUrl issuer) ∧ PathOnly issuer) → ∃ e, wellKnownUrl issuer name = .error e)

/-! ## What is trimmed -/

theorem rdropWhile_append_of_last {α : Type*} {p : α → Bool} {l : List α}
    (h : ∀ hl : l ≠ [], ¬ p (l.getLast hl)) (l' : List α) :
    (l ++ l').rdropWhile p = l ++ l'.rdropWhile p := by
  induction l' using List.reverseRecOn with
  | nil =>
      rw [List.append_nil, List.rdropWhile_nil, List.append_nil]
      exact List.rdropWhile_eq_self_iff.mpr h
  | append_singleton l' x ih =>
      rw [← List.append_assoc, List.rdropWhile_concat, List.rdropWhile_concat, ih]
      split
      · rfl
      · rw [List.append_assoc]

/-- The path without the slashes at its end. -/
def trimmedPath (path : List Char) : List Char := path.rdropWhile (· == '/')

variable {issuer : String}

/-- What is trimmed are slashes. -/
theorem trimEndMatches_append (s : String) :
    ∃ slashes : List Char, (∀ c ∈ slashes, c = '/') ∧
      s.toList = (Text.trimEndMatches '/' s).toList ++ slashes := by
  refine ⟨s.toList.rtakeWhile (· == '/'), fun c hc => ?_, ?_⟩
  · have hslash := List.mem_rtakeWhile_imp hc
    exact beq_iff_eq.mp hslash
  · rw [Text.trimEndMatches, String.toList_ofList]
    exact (List.rdropWhile_append_rtakeWhile ..).symm

theorem IssuerUrl.trimmed (u : IssuerUrl issuer) :
    (Text.trimEndMatches '/' issuer).toList =
      u.scheme ++ ("://".toList ++ (u.authority ++ trimmedPath u.path)) := by
  have hlast : ∀ hl : u.scheme ++ ("://".toList ++ u.authority) ≠ [],
      ¬ ((u.scheme ++ ("://".toList ++ u.authority)).getLast hl == '/') = true := by
    intro hl heq
    have hmem : '/' ∈ u.authority := by
      rw [← beq_iff_eq.mp heq, List.getLast_append_of_ne_nil _ (by simp),
        List.getLast_append_of_ne_nil _ u.host.1]
      exact List.getLast_mem u.host.1
    exact u.host.2 hmem
  have hparts := rdropWhile_append_of_last (p := (· == '/')) hlast u.path
  rw [List.append_assoc, List.append_assoc, List.append_assoc, List.append_assoc] at hparts
  rw [Text.trimEndMatches, String.toList_ofList, u.text]
  exact hparts

theorem trimmedPath_rooted {path : List Char} (h : path = [] ∨ path.head? = some '/') :
    trimmedPath path = [] ∨ (trimmedPath path).head? = some '/' := by
  have hprefix : trimmedPath path <+: path := List.rdropWhile_prefix ..
  obtain ⟨slashes, hslashes⟩ := hprefix
  cases htrimmed : trimmedPath path with
  | nil => exact Or.inl rfl
  | cons c rest =>
      rw [htrimmed] at hslashes
      rcases h with rfl | h
      · cases hslashes
      · rw [← hslashes] at h
        exact Or.inr h

/-- The slash that `well_known_url` puts back. -/
def restored (issuer name : String) (path : List Char) : List Char :=
  if name = credentialIssuerWellKnown ∧ path ≠ [] ∧ issuer.toList.getLast? = some '/' then ['/']
  else []

/-- **An identifier with the three parts** gets a URL, whatever is in them. -/
theorem IssuerUrl.wellKnownUrl_eq (u : IssuerUrl issuer) (name : String) :
    wellKnownUrl issuer name =
      .ok (u.withTail name (trimmedPath u.path ++ restored issuer name (trimmedPath u.path))) := by
  have hsplit : Text.splitAtFirst "://".toList (Text.trimEndMatches '/' issuer).toList =
      some (u.scheme, u.authority ++ trimmedPath u.path) := by
    rw [Text.splitAtFirst_eq_some (by decide)]
    refine ⟨u.trimmed, fun n hn hprefix => u.first n hn ?_⟩
    have htrim : (Text.trimEndMatches '/' issuer).toList <+: issuer.toList := by
      rw [Text.trimEndMatches, String.toList_ofList]
      exact List.rdropWhile_prefix ..
    exact hprefix.trans (htrim.drop n)
  have hplain : ∀ c ∈ u.authority, (c != '/') = true := by
    intro c hc
    rw [bne_iff_ne]
    rintro rfl
    exact u.host.2 hc
  have htake : (u.authority ++ trimmedPath u.path).takeWhile (· != '/') = u.authority := by
    rw [List.takeWhile_append_of_pos hplain]
    rcases trimmedPath_rooted u.rooted with hnil | hhead
    · rw [hnil, List.takeWhile_nil, List.append_nil]
    · obtain ⟨rest, hrest⟩ := List.head?_eq_some_iff.mp hhead
      rw [hrest, List.takeWhile_cons_of_neg (by simp), List.append_nil]
  have hdrop : (u.authority ++ trimmedPath u.path).dropWhile (· != '/') = trimmedPath u.path := by
    rw [List.dropWhile_append_of_pos hplain]
    rcases trimmedPath_rooted u.rooted with hnil | hhead
    · rw [hnil, List.dropWhile_nil]
    · obtain ⟨rest, hrest⟩ := List.head?_eq_some_iff.mp hhead
      rw [hrest, List.dropWhile_cons_of_neg (by simp)]
  unfold wellKnownUrl
  dsimp only
  rw [hsplit]
  dsimp only
  rw [htake, hdrop, if_neg u.host.1, IssuerUrl.withTail, restored, String.ofList_append]
  split
  · rw [← String.append_assoc]
  · rw [← String.append_assoc]

/-- **An identifier without the parts** gets none. -/
theorem wellKnownUrl_error (h : ¬ Nonempty (IssuerUrl issuer)) (name : String) :
    ∃ e, wellKnownUrl issuer name = .error e := by
  unfold wellKnownUrl
  dsimp only
  cases hsplit : Text.splitAtFirst "://".toList (Text.trimEndMatches '/' issuer).toList with
  | none => exact ⟨_, rfl⟩
  | some parts =>
      obtain ⟨scheme, rest⟩ := parts
      by_cases hhost : rest.takeWhile (· != '/') = []
      · exact ⟨_, by dsimp only; rw [if_pos hhost]⟩
      · -- otherwise the parts of the trimmed text are those of the identifier
        exfalso
        obtain ⟨htext, hfirst⟩ := (Text.splitAtFirst_eq_some (by decide)).mp hsplit
        obtain ⟨slashes, hall, hslashes⟩ := trimEndMatches_append issuer
        refine h ⟨⟨scheme, rest.takeWhile (· != '/'), rest.dropWhile (· != '/') ++ slashes, ?_, ?_,
          ⟨hhost, ?_⟩, ?_⟩⟩
        · rw [hslashes, htext, ← List.append_assoc (rest.takeWhile _),
            List.takeWhile_append_dropWhile, List.append_assoc, List.append_assoc]
        · intro n hn hprefix
          have htrim : (Text.trimEndMatches '/' issuer).toList <+: issuer.toList :=
            ⟨slashes, hslashes.symm⟩
          refine hfirst n hn (List.prefix_of_prefix_length_le hprefix (htrim.drop n) ?_)
          rw [htext]
          simp only [List.length_drop, List.length_append]
          omega
        · intro hmem
          simpa using List.mem_takeWhile_imp hmem
        · cases hpath : rest.dropWhile (· != '/') with
          | nil =>
              cases slashes with
              | nil => exact Or.inl rfl
              | cons c slashes =>
                  refine Or.inr ?_
                  rw [List.nil_append, List.head?_cons, hall c List.mem_cons_self]
          | cons c path =>
              have hne : rest.dropWhile (· != '/') ≠ [] := by rw [hpath]; simp
              have hhead := List.head_dropWhile_not (· != '/') hne
              refine Or.inr ?_
              simp only [hpath, List.head_cons] at hhead
              simpa using hhead

/-! ## When the answer is the right one -/

/-- The last character before the path is none of its slashes. -/
theorem IssuerUrl.authority_last (u : IssuerUrl issuer) :
    ∃ c, c ≠ '/' ∧ c :: u.path <:+ issuer.toList := by
  obtain ⟨front, c, hauthority⟩ := (List.eq_nil_or_concat u.authority).resolve_left u.host.1
  refine ⟨c, ?_, u.scheme ++ ("://".toList ++ front), ?_⟩
  · rintro rfl
    exact u.host.2 (by rw [hauthority]; simp)
  · rw [u.text, hauthority]
    simp

/-- An identifier ends in two slashes just when its path does. -/
theorem IssuerUrl.suffix_iff (u : IssuerUrl issuer) :
    ['/', '/'] <:+ issuer.toList ↔ ['/', '/'] <:+ u.path := by
  obtain ⟨c, hc, hpath⟩ := u.authority_last
  constructor
  · intro hslashes
    cases hu : u.path with
    | nil =>
        rw [hu] at hpath
        have hlast := List.suffix_of_suffix_length_le hpath hslashes (by simp)
        have hmem : c ∈ ['/', '/'] := hlast.subset List.mem_cons_self
        simp [hc] at hmem
    | cons d path =>
        rw [hu] at hpath
        cases path with
        | nil =>
            have hlast := (List.suffix_of_suffix_length_le hslashes hpath (by simp)).eq_of_length rfl
            simp [Ne.symm hc] at hlast
        | cons e path =>
            exact List.suffix_of_suffix_length_le hslashes ((List.suffix_cons c _).trans hpath)
              (by simp)
  · exact fun hslashes => hslashes.trans ((List.suffix_cons c _).trans hpath)

/-- And in a slash. -/
theorem IssuerUrl.getLast?_iff (u : IssuerUrl issuer) :
    issuer.toList.getLast? = some '/' ↔ u.path.getLast? = some '/' := by
  obtain ⟨c, hc, front, hfront⟩ := u.authority_last
  rw [← hfront, List.getLast?_append_cons]
  cases hu : u.path with
  | nil => simp [hc]
  | cons d path => rw [List.getLast?_cons_cons]

/-- How a path may end: in no slash, in one, or in more. -/
theorem path_end (path : List Char) :
    path = [] ∨ path = ['/'] ∨ (∃ front c, c ≠ '/' ∧ path = front ++ [c]) ∨
      (∃ front c, c ≠ '/' ∧ path = front ++ [c, '/']) ∨ ∃ front, path = front ++ ['/', '/'] := by
  rcases List.eq_nil_or_concat path with rfl | ⟨front, c, rfl⟩
  · exact Or.inl rfl
  · by_cases hc : c = '/'
    · subst hc
      rcases List.eq_nil_or_concat front with rfl | ⟨front, d, rfl⟩
      · exact Or.inr (Or.inl rfl)
      · by_cases hd : d = '/'
        · subst hd
          exact Or.inr (Or.inr (Or.inr (Or.inr ⟨front, by simp⟩)))
        · exact Or.inr (Or.inr (Or.inr (Or.inl ⟨front, d, hd, by simp⟩)))
    · exact Or.inr (Or.inr (Or.inl ⟨front, c, hc, List.concat_eq_append⟩))

theorem not_suffix_concat {front : List Char} {c : Char} (hc : c ≠ '/') :
    ¬ ['/', '/'] <:+ front ++ [c] := by
  rintro ⟨t, ht⟩
  have hlast := congrArg List.getLast? ht
  rw [List.getLast?_concat] at hlast
  simp [Ne.symm hc] at hlast

theorem not_suffix_slash {front : List Char} {c : Char} (hc : c ≠ '/') :
    ¬ ['/', '/'] <:+ front ++ [c, '/'] := by
  rintro ⟨t, ht⟩
  rw [List.append_cons t, List.append_cons front] at ht
  obtain ⟨hfront, -⟩ := List.append_inj' ht rfl
  have hlast := congrArg List.getLast? hfront
  rw [List.getLast?_concat, List.getLast?_concat] at hlast
  exact hc (Option.some_inj.mp hlast).symm

/-- What is trimmed and restored is the path of the metadata unless it ends in two
slashes. -/
theorem IssuerUrl.restored_eq_iff (u : IssuerUrl issuer) (name : String) :
    trimmedPath u.path ++ restored issuer name (trimmedPath u.path) = metadataPath name u.path ↔
      ¬ ['/', '/'] <:+ u.path := by
  simp only [restored, u.getLast?_iff, metadataPath, trimmedPath]
  rcases path_end u.path with hu | hu | ⟨front, c, hc, hu⟩ | ⟨front, c, hc, hu⟩ | ⟨front, hu⟩
  · simp [hu]
  · simp [hu, List.rdropWhile_singleton, List.suffix_cons_iff]
  · have hends : ¬ ['/', '/'] <:+ front ++ [c] := not_suffix_concat hc
    have hkept : (front ++ [c]).rdropWhile (· == '/') = front ++ [c] :=
      List.rdropWhile_concat_neg _ _ _ (by simpa using hc)
    have hsingle : front ++ [c] ≠ ['/'] := by
      intro h
      have hlast := congrArg List.getLast? h
      simp [hc] at hlast
    rw [hu, hkept]
    simp [hc, hends, hsingle]
  · have hends : ¬ ['/', '/'] <:+ front ++ [c, '/'] := not_suffix_slash hc
    have htrimmed : (front ++ [c, '/']).rdropWhile (· == '/') = front ++ [c] := by
      rw [List.append_cons, List.rdropWhile_concat_pos _ _ _ (by simp)]
      exact List.rdropWhile_concat_neg _ _ _ (by simpa using hc)
    have hsingle : front ++ [c, '/'] ≠ ['/'] := by
      intro h
      have hlength := congrArg List.length h
      simp at hlength
    rw [hu, htrimmed]
    by_cases hname : name = credentialIssuerWellKnown
    · simp [hname, hends, hsingle]
    · simp [hname, hends]
  · have hends : ['/', '/'] <:+ front ++ ['/', '/'] := List.suffix_append front _
    -- both slashes are gone, and at most one comes back
    have hlength : ((front ++ ['/', '/']).rdropWhile (· == '/')).length ≤ front.length := by
      have htrimmed : (front ++ ['/', '/']).rdropWhile (· == '/') = front.rdropWhile (· == '/') := by
        rw [List.append_cons, List.rdropWhile_concat_pos _ _ _ (by simp),
          List.rdropWhile_concat_pos _ _ _ (by simp)]
      rw [htrimmed]
      exact (List.rdropWhile_prefix ..).length_le
    have hsingle : front ++ ['/', '/'] ≠ ['/'] := by
      intro h
      have htwo := congrArg List.length h
      simp at htwo
    rw [hu]
    refine iff_of_false (fun h => ?_) (not_not.mpr hends)
    have hlengths := congrArg List.length h
    rw [List.length_append] at hlengths
    by_cases hname : name = credentialIssuerWellKnown
    · rw [if_pos hname, if_neg hsingle, List.length_append] at hlengths
      have hone : ∀ p : Prop, ∀ [Decidable p], (if p then ['/'] else []).length ≤ 1 := by
        intro p _
        split <;> simp
      have hback := hone (name = credentialIssuerWellKnown ∧
        (front ++ ['/', '/']).rdropWhile (· == '/') ≠ [] ∧
          (front ++ ['/', '/']).getLast? = some '/')
      have htwo : ['/', '/'].length = 2 := rfl
      omega
    · have hgone : (front ++ ['/', '/']).dropLast.length = front.length + 1 := by simp
      rw [if_neg (fun h => hname h.1), if_neg hname, if_pos (by simp), hgone,
        List.length_nil] at hlengths
      omega

/-- The parts of an identifier whose path ends in two slashes. -/
def tenantUrl : IssuerUrl "https://issuer.example/tenant//" where
  scheme := "https".toList
  authority := "issuer.example".toList
  path := "/tenant//".toList
  text := by decide
  first := by decide
  host := by decide
  rooted := by decide

end IdentityHub.Wallet
