import IdentityHub.Issuer.Governance
import IdentityHub.Issuer.QueryOrder

/-!
# What the admin API lets be seen

The holder's bearer token that a process keeps is never shown: two states that differ in
such tokens alone give every request the same answer, and go on to differ in them alone.

A listing sorts by any field the operator names. What the tables keep is of one kind in
each field but a definition's JSON schema, which may be any JSON: only a query by that
field can hand the sort an order that is none.
-/

namespace IdentityHub

open Json (Value Number)
open StepSystem (Machine Reachable)

variable {X : External} {api : AdminApi X}

/-! ## The holders' bearer tokens -/

def IssuanceProcess.forgetBearer (p : IssuanceProcess) : IssuanceProcess :=
  { p with deliveryBearer := none }

def AppState.forgetBearers (app : AppState) : AppState :=
  { app with requests := app.requests.mapRecords IssuanceProcess.forgetBearer }

/-- The state without the bearer tokens its processes keep. -/
def IssuerSys.forgetBearers (s : IssuerSys) : IssuerSys :=
  { s with app := s.app.forgetBearers }

theorem KeyedTable.values_map {κ ν : Type*} (f : ν → ν) (t : KeyedTable κ ν) :
    KeyedTable.values (KeyedTable.map (fun _ => f) t) = (KeyedTable.values t).map f := by
  unfold KeyedTable.values KeyedTable.map KeyedTable.mapEntry
  rw [List.map_map, List.map_map]
  rfl

theorem RequestTable.iter_mapRecords (table : RequestTable)
    (f : IssuanceProcess → IssuanceProcess) :
    (table.mapRecords f).iter = table.iter.map f := by
  unfold RequestTable.iter
  rw [List.map_filterMap]
  apply List.filterMap_congr
  intro id _
  exact RequestTable.get_mapRecords id f

theorem RequestTable.mapRecords_comm (table : RequestTable)
    {f g : IssuanceProcess → IssuanceProcess} (h : ∀ p, f (g p) = g (f p)) :
    (table.mapRecords g).mapRecords f = (table.mapRecords f).mapRecords g := by
  unfold RequestTable.mapRecords
  congr 1
  apply AList.ext
  show (table.records.entries.map _).map _ = (table.records.entries.map _).map _
  rw [List.map_map, List.map_map]
  apply List.map_congr_left
  intro entry _
  show (⟨entry.1, f (g entry.2)⟩ : Σ _ : String, IssuanceProcess) = ⟨entry.1, g (f entry.2)⟩
  rw [h]

theorem decideHolder_forget {app : AppState} {holderId : String} {status : HolderStatus}
    {next : ProcessState} {now : ℕ} :
    decideHolder app.forgetBearers holderId status next now =
      (decideHolder app holderId status next now).map
        (fun decided => (decided.1, decided.2.1, decided.2.2.forgetBearers)) := by
  have hcomm := app.requests.mapRecords_comm
    (f := fun p => if isDecided holderId next p then p.transition next now else p)
    (g := IssuanceProcess.forgetBearer) (by
      intro p
      show (if isDecided holderId next p then _ else _) = _
      split <;> rfl)
  have hvalues : ((KeyedTable.values (app.forgetBearers).requests.records).filter
      (isDecided holderId next)).map (·.id) =
        ((KeyedTable.values app.requests.records).filter (isDecided holderId next)).map
          (·.id) := by
    show ((KeyedTable.values (KeyedTable.map _ app.requests.records)).filter _).map _ = _
    rw [KeyedTable.values_map, List.filter_map, List.map_map]
    rfl
  unfold decideHolder
  have hholders : app.forgetBearers.holders = app.holders := rfl
  rw [hvalues, hholders]
  cases app.holders.get holderId with
  | none => rfl
  | some holder =>
      simp only [Except.map, AppState.forgetBearers, hcomm]

theorem registerHolder_forget {app : AppState} {registration : HolderRegistration} {now : ℕ}
    {uuid : String} :
    registerHolder app.forgetBearers registration now uuid =
      (registerHolder app registration now uuid).map
        (fun registered => (registered.1, registered.2.forgetBearers)) := by
  unfold registerHolder
  by_cases hdid : (!"did:".toList.isPrefixOf registration.did.toList) = true
  · rw [if_pos hdid, if_pos hdid]
    rfl
  · rw [if_neg hdid, if_neg hdid]
    by_cases hid : registration.holderId.any Text.isBlank = true
    · rw [if_pos hid, if_pos hid]
      rfl
    · rw [if_neg hid, if_neg hid]
      simp only [AppState.forgetBearers, bind, Except.bind]
      cases app.holders.insert _ <;> rfl

theorem operatorDecision_forget {s : IssuerSys} {holderId : String} {status : HolderStatus}
    {next : ProcessState} {now : ℕ} :
    operatorDecision s.forgetBearers holderId status next now =
      (operatorDecision s holderId status next now).forgetBearers := by
  have happ : s.forgetBearers.app = s.app.forgetBearers := rfl
  unfold operatorDecision
  rw [happ, decideHolder_forget]
  cases decideHolder s.app holderId status next now <;> rfl

/-- An answer and the state after it, with the tokens forgotten. -/
def forgetAfter (r : Except IssuerError (AdminResponse × IssuerSys)) :
    Except IssuerError (AdminResponse × IssuerSys) :=
  r.map (fun out => (out.1, out.2.forgetBearers))

namespace AdminApi

variable {s : IssuerSys} {body : List UInt8} {now : ℕ} {uuid : String}

/-- **Each handler answers the same**, and leaves the same but for the tokens. -/
theorem call_forget (target : AdminCall) :
    api.call s.forgetBearers body now uuid target =
      (api.call s body now uuid target).map forgetAfter := by
  have read : ∀ r : Except IssuerError AdminResponse,
      some (r.map (fun response => (response, s.forgetBearers))) =
        (some (r.map (fun response => (response, s)))).map forgetAfter := by
    intro r
    cases r <;> rfl
  have query : ∀ r : Option (Except IssuerError AdminResponse),
      r.map (·.map (fun response => (response, s.forgetBearers))) =
        (r.map (·.map (fun response => (response, s)))).map forgetAfter := by
    intro r
    rcases r with _ | _ | _ <;> rfl
  have decided : ∀ holderId status next,
      some (decideHolder s.forgetBearers now holderId status next) =
        (some (decideHolder s now holderId status next)).map forgetAfter := by
    intro holderId status next
    unfold decideHolder
    show some ((IdentityHub.decideHolder s.app.forgetBearers holderId status next now).bind _) = _
    rw [decideHolder_forget, operatorDecision_forget]
    cases IdentityHub.decideHolder s.app holderId status next now <;> rfl
  have hdefinitions : s.forgetBearers.app.definitions = s.app.definitions := rfl
  have hholders : s.forgetBearers.app.holders = s.app.holders := rfl
  have hissued : s.forgetBearers.app.issued = s.app.issued := rfl
  cases target with
  | participant => rfl
  | createDefinition =>
      simp only [call, createDefinition, hdefinitions, bind, Except.bind]
      cases api.parseBody CredentialDefinitionInput.fromJson body with
      | error e => rfl
      | ok input =>
          dsimp only
          cases input.intoDefinition now with
          | error e => rfl
          | ok definition =>
              dsimp only
              cases s.app.definitions.create definition <;> rfl
  | updateDefinition =>
      simp only [call, updateDefinition, hdefinitions, bind, Except.bind]
      cases api.parseBody CredentialDefinitionInput.fromJson body with
      | error e => rfl
      | ok input =>
          dsimp only
          cases input.intoDefinition now with
          | error e => rfl
          | ok definition =>
              dsimp only
              cases s.app.definitions.update definition <;> rfl
  | deleteDefinition id =>
      have hused : s.forgetBearers.app.requests.iter.any
          (fun p => p.state.isActive && p.credentialDefinitions.contains id) =
            s.app.requests.iter.any
              (fun p => p.state.isActive && p.credentialDefinitions.contains id) := by
        show (s.app.requests.mapRecords _).iter.any _ = _
        rw [RequestTable.iter_mapRecords, List.any_map]
        rfl
      simp only [call, deleteDefinition, IdentityHub.deleteDefinition, hdefinitions, hused]
      split
      · rfl
      · split <;> rfl
  | registerHolder =>
      simp only [call, registerHolder, bind, Except.bind]
      cases api.parseBody HolderRegistration.fromJson body with
      | error e => rfl
      | ok registration =>
          have happ : s.forgetBearers.app = s.app.forgetBearers := rfl
          simp only [happ, registerHolder_forget]
          cases IdentityHub.registerHolder s.app registration now uuid <;> rfl
  | updateHolder =>
      simp only [call, updateHolder, hholders, bind, Except.bind]
      cases api.parseBody HolderUpdate.fromJson body with
      | error e => rfl
      | ok update =>
          dsimp only
          cases s.app.holders.get update.holderId <;> rfl
  | revokeCredential id =>
      simp only [call, revokeCredential, IdentityHub.revokeCredential, hissued, bind, Except.bind]
      cases s.app.issued.revoke id <;> rfl
  | getProcess id =>
      have hget : s.forgetBearers.app.requests.get id =
          (s.app.requests.get id).map IssuanceProcess.forgetBearer :=
        RequestTable.get_mapRecords id _
      have hanswer : getProcess s.forgetBearers id = getProcess s id := by
        unfold getProcess
        rw [hget]
        cases s.app.requests.get id <;> rfl
      simp only [call, hanswer]
      exact read _
  | queryProcesses =>
      have hitems : s.forgetBearers.app.requests.iter.map (·.toJson) =
          s.app.requests.iter.map (·.toJson) := by
        show (s.app.requests.mapRecords _).iter.map _ = _
        rw [RequestTable.iter_mapRecords, List.map_map]
        rfl
      simp only [call, hitems]
      exact query _
  | approveHolder holderId => exact decided holderId _ _
  | rejectHolder holderId => exact decided holderId _ _
  | getDefinition id => exact read _
  | getHolder holderId => exact read _
  | credentialStatus id => exact read _
  | queryDefinitions => exact query _
  | queryHolders => exact query _
  | queryCredentials => exact query _

theorem handle_forget (request : AdminRequest) :
    api.handle s.forgetBearers now uuid request =
      ((api.handle s now uuid request).1, (api.handle s now uuid request).2.forgetBearers) := by
  unfold handle
  cases api.route request with
  | error refusal => rfl
  | ok target =>
      dsimp only
      rw [call_forget]
      rcases api.call s request.body now uuid target with _ | _ | _ <;> rfl

/-- One request after the other, each with the clock reading and the identifier it draws:
the answers. -/
def answers (api : AdminApi X) : IssuerSys → List (AdminRequest × ℕ × String) →
    List (Option AdminResponse)
  | _, [] => []
  | s, (request, now, uuid) :: requests =>
      (api.handle s now uuid request).1 :: answers api (api.handle s now uuid request).2 requests

theorem answers_forget (s : IssuerSys) (requests : List (AdminRequest × ℕ × String)) :
    api.answers s.forgetBearers requests = api.answers s requests := by
  induction requests generalizing s with
  | nil => rfl
  | cons visit requests ih =>
      obtain ⟨request, now, uuid⟩ := visit
      rw [answers, answers, handle_forget]
      dsimp only
      rw [ih]

/-- **The admin API never shows a holder's bearer token**: no requests, however many and
in whatever order, tell two states apart that differ in these tokens alone. -/
theorem bearer_never_shown {s₁ s₂ : IssuerSys} (h : s₁.forgetBearers = s₂.forgetBearers)
    (requests : List (AdminRequest × ℕ × String)) :
    api.answers s₁ requests = api.answers s₂ requests := by
  rw [← answers_forget s₁, h, answers_forget]

end AdminApi

/-- A process that keeps a bearer token. -/
def keepingBearer (bearer : String) : IssuerSys :=
  let process : IssuanceProcess :=
    { id := "p1"
      state := .submitted
      holderId := "acme"
      holderDid := "did:web:acme"
      holderPid := "h1"
      credentialDefinitions := ["membership"]
      errorDetail := none
      createdAt := 10
      stateTimestamp := 10
      deliveryBearer := some bearer
      deliveryStarted := false }
  { IssuerSys.start 0 with
    app :=
      { AppState.new 0 with
        requests :=
          { records := (∅ : KeyedTable String IssuanceProcess).insert "p1" process
            order := ["p1"]
            capacity := maxTrackedRequests } } }

theorem bearer_never_shown_sample :
    keepingBearer "first" ≠ keepingBearer "second" ∧
      ∀ requests, (sampleApi .manual).answers (keepingBearer "first") requests =
        (sampleApi .manual).answers (keepingBearer "second") requests := by
  constructor
  · intro heq
    have hbearer := congrArg
      (fun s => (s.app.requests.get "p1").bind (·.deliveryBearer)) heq
    exact absurd hbearer (by decide)
  · intro requests
    have hsame : (keepingBearer "first").forgetBearers = (keepingBearer "second").forgetBearers :=
      rfl
    exact AdminApi.bearer_never_shown hsame requests

/-! ## Listings -/

/-- The values an item may have in a field are of one kind, or missing. -/
def Uniform (field : String) (items : List Value) : Prop :=
  ∃ kind, ∀ item ∈ items,
    fieldKind (item.get field) = .missing ∨ fieldKind (item.get field) = kind

theorem not_bridged_of_uniform {field : String} {items : List Value} (h : Uniform field items) :
    ¬ Bridged field items := by
  obtain ⟨kind, hkind⟩ := h
  rintro ⟨a, ha, b, hb, c, hc, hmissing, hac, hba, hne⟩
  have hbkind : fieldKind (b.get field) = kind := (hkind b hb).resolve_left hmissing
  rcases hkind a ha with ha' | ha'
  · -- two missing values compare equal
    apply hne
    rw [compareValues_missing ha', if_pos (hac.symm.trans ha')]
  · exact hba (hbkind.trans ha'.symm)

theorem Uniform.mono {field : String} {items part : List Value} (h : Uniform field items)
    (hpart : part ⊆ items) : Uniform field part := by
  obtain ⟨kind, hkind⟩ := h
  exact ⟨kind, fun item hitem => hkind item (hpart hitem)⟩

/-- The fields of an object with the kinds their values have when they have any; none for
a field that may hold anything. -/
def HasShape (shape : List (String × Option FieldKind)) (fields : List (String × Value)) : Prop :=
  List.Forall₂ (fun expected field => field.1 = expected.1 ∧ ∀ kind, expected.2 = some kind →
    fieldKind (some field.2) = .missing ∨ fieldKind (some field.2) = kind) shape fields

theorem HasShape.fieldKind {shape : List (String × Option FieldKind)}
    {fields : List (String × Value)} (h : HasShape shape fields) {name : String}
    (hname : shape.lookup name ≠ some none) :
    IdentityHub.fieldKind ((Value.object fields).get name) = .missing ∨
      IdentityHub.fieldKind ((Value.object fields).get name) =
        ((shape.lookup name).bind id).getD .missing := by
  induction h with
  | nil => exact Or.inl rfl
  | @cons expected field shape fields hfield _ ih =>
      obtain ⟨key, kind⟩ := expected
      obtain ⟨key', value⟩ := field
      obtain ⟨rfl, hkind⟩ := hfield
      rw [Value.get_object_cons]
      rw [List.lookup_cons] at hname ⊢
      by_cases hk : name = key'
      · simp only [hk, beq_self_eq_true, if_true] at hname ⊢
        cases kind with
        | none => exact absurd rfl hname
        | some kind => exact hkind kind rfl
      · have hbeq : (name == key') = false := beq_false_of_ne hk
        simp only [hbeq, hk, if_false] at hname ⊢
        exact ih hname

/-- Records of one shape are uniform in each field of one kind. -/
theorem uniform_of_shape {α : Type} {toFields : α → List (String × Value)}
    (shape : List (String × Option FieldKind)) (h : ∀ r, HasShape shape (toFields r))
    {field : String} (hfield : shape.lookup field ≠ some none) (records : List α) :
    Uniform field (records.map (fun r => .object (toFields r))) := by
  refine ⟨((shape.lookup field).bind id).getD .missing, fun item hitem => ?_⟩
  obtain ⟨r, -, rfl⟩ := List.mem_map.mp hitem
  exact (h r).fieldKind hfield

theorem lookup_ne_some_none {shape : List (String × Option FieldKind)} {name : String}
    (h : ∀ expected ∈ shape, expected.2 = none → expected.1 ≠ name) :
    shape.lookup name ≠ some none := by
  intro hnone
  obtain ⟨before, after, rfl, -⟩ := List.lookup_eq_some_iff.mp hnone
  exact h (name, none) (by simp) rfl rfl

@[simp] theorem fieldKind_string (t : String) : fieldKind (some (.string t)) = .string := rfl

@[simp] theorem fieldKind_ofNat (n : ℕ) : fieldKind (some (.ofNat n)) = .number := rfl

@[simp] theorem fieldKind_array (items : List Value) :
    fieldKind (some (.array items)) = .nested := rfl

@[simp] theorem fieldKind_object (fields : List (String × Value)) :
    fieldKind (some (.object fields)) = .nested := rfl

theorem fieldKind_textOrNull (text : Option String) :
    fieldKind (some (textOrNull text)) = .missing ∨
      fieldKind (some (textOrNull text)) = .string := by
  cases text with
  | none => exact Or.inl rfl
  | some t => exact Or.inr rfl

theorem uniform_definitions {field : String} (hfield : field ≠ "jsonSchema")
    (definitions : List CredentialDefinition) :
    Uniform field (definitions.map (·.toJson)) := by
  apply uniform_of_shape
    [("id", some .string), ("credentialType", some .string), ("format", some .string),
     ("validity", some .number), ("jsonSchemaUrl", some .string), ("jsonSchema", none),
     ("mappings", some .nested), ("rules", some .nested), ("attestations", some .nested),
     ("createdAt", some .number)]
  · intro definition
    simp [HasShape, fieldKind_textOrNull]
  · apply lookup_ne_some_none
    simp [hfield.symm]

theorem uniform_holders (field : String) (holders : List Holder) :
    Uniform field (holders.map (·.toJson)) := by
  apply uniform_of_shape
    [("holderId", some .string), ("did", some .string), ("name", some .string),
     ("properties", some .nested), ("status", some .string), ("createdAt", some .number)]
  · intro holder
    simp [HasShape, fieldKind_textOrNull]
  · apply lookup_ne_some_none
    simp

theorem uniform_processes (field : String) (processes : List IssuanceProcess) :
    Uniform field (processes.map (·.toJson)) := by
  apply uniform_of_shape
    [("id", some .string), ("state", some .string), ("holderId", some .string),
     ("holderDid", some .string), ("holderPid", some .string),
     ("credentialDefinitions", some .nested), ("errorDetail", some .string),
     ("createdAt", some .number), ("stateTimestamp", some .number)]
  · intro process
    simp [HasShape, fieldKind_textOrNull]
  · apply lookup_ne_some_none
    simp

theorem uniform_credentials (field : String) (credentials : List IssuedCredential) :
    Uniform field (credentials.map (·.toJson)) := by
  apply uniform_of_shape
    [("id", some .string), ("credentialType", some .string),
     ("credentialDefinitionId", some .string), ("holderId", some .string),
     ("holderDid", some .string), ("issuanceProcessId", some .string),
     ("format", some .string), ("issuedAt", some .number), ("expiresAt", some .number),
     ("status", some .string), ("statusListIndex", some .number)]
  · intro record
    simp [HasShape]
  · apply lookup_ne_some_none
    simp

/-- A query goes without an answer where its sort is given no total order. -/
theorem apply_eq_none_iff {numberText : Number → String} {spec : QuerySpec} {items : List Value} :
    spec.apply numberText items = none ↔ BridgesQuery numberText spec items := by
  constructor
  · intro hnone
    by_contra hnot
    obtain ⟨outcome, happly, -⟩ := sortsPage_iff.mpr hnot
    rw [hnone] at happly
    cases happly
  · rintro ⟨field, q, hfield, hcheck, hbridged⟩
    rw [QuerySpec.apply_of_check numberText hcheck, hfield, Option.map_eq_none_iff]
    exact if_neg (fun htotal => totalOn_compareItems_iff.mp htotal hbridged)

theorem not_bridgesQuery_of_uniform {numberText : Number → String} {spec : QuerySpec}
    {items : List Value} (h : ∀ field, spec.sortField = some field → Uniform field items) :
    ¬ BridgesQuery numberText spec items := by
  rintro ⟨field, q, hfield, -, hbridged⟩
  apply not_bridged_of_uniform ((h field hfield).mono _) hbridged
  exact List.filter_subset_self _

namespace AdminApi

variable {s : IssuerSys} {body : List UInt8} {now : ℕ} {uuid : String} {items : List Value}

theorem runQuery_eq_none :
    api.runQuery body items = none ↔
      ∃ spec, api.querySpec body = .ok spec ∧ BridgesQuery api.numberText spec items := by
  unfold runQuery
  cases api.querySpec body with
  | error e => simp
  | ok spec => simp [apply_eq_none_iff]

theorem runQuery_of_uniform (h : ∀ field, Uniform field items) :
    api.runQuery body items ≠ none := by
  intro hnone
  obtain ⟨spec, -, hbridges⟩ := runQuery_eq_none.mp hnone
  exact not_bridgesQuery_of_uniform (fun field _ => h field) hbridges

/-- The definitions are to be sorted by their JSON schemas, and the sort is given no total
order of those that match. -/
def SortsSchemas (api : AdminApi X) (s : IssuerSys) (body : List UInt8) : Prop :=
  ∃ spec q, api.querySpec body = .ok spec ∧ spec.sortField = some "jsonSchema" ∧
    spec.check = .ok q ∧
      Bridged "jsonSchema"
        (matched api.numberText q.criteria (s.app.definitions.definitions.map (·.toJson)))

theorem queryDefinitions_eq_none :
    api.runQuery body (s.app.definitions.definitions.map (·.toJson)) = none ↔
      api.SortsSchemas s body := by
  rw [runQuery_eq_none]
  constructor
  · rintro ⟨spec, hspec, field, q, hfield, hcheck, hbridged⟩
    have hschema : field = "jsonSchema" := by
      by_contra hne
      apply not_bridged_of_uniform _ hbridged
      exact (uniform_definitions hne _).mono ((List.filter_subset_self _))
    subst hschema
    exact ⟨spec, q, hspec, hfield, hcheck, hbridged⟩
  · rintro ⟨spec, q, hspec, hfield, hcheck, hbridged⟩
    exact ⟨spec, hspec, "jsonSchema", q, hfield, hcheck, hbridged⟩

theorem call_eq_none {target : AdminCall} :
    api.call s body now uuid target = none ↔
      target = .queryDefinitions ∧ api.SortsSchemas s body := by
  have query := @runQuery_of_uniform X api body
  cases target with
  | queryDefinitions => simp [call, queryDefinitions_eq_none]
  | queryHolders =>
      have h := query (fun field => uniform_holders field (allHolders s.app.holders))
      simp [call, h]
  | queryProcesses =>
      have h := query (fun field => uniform_processes field s.app.requests.iter)
      simp [call, h]
  | queryCredentials =>
      have h := query (fun field => uniform_credentials field s.app.issued.all)
      simp [call, h]
  | _ => simp [call]

/-- **Which requests the admin API may leave without an answer**: in every state, only a
query of the definitions by their JSON schemas can. -/
theorem unanswered_iff {request : AdminRequest} :
    (api.handle s now uuid request).1 = none ↔
      api.route request = .ok .queryDefinitions ∧ api.SortsSchemas s request.body := by
  unfold handle
  cases api.route request with
  | error refusal => simp
  | ok target =>
      have hcall : api.call s request.body now uuid target = none ↔ _ := call_eq_none
      rw [Except.ok.injEq, ← hcall]
      dsimp only
      rcases api.call s request.body now uuid target with _ | _ | _ <;> simp

end AdminApi

end IdentityHub
