import IdentityHub.Http.Response
import IdentityHub.Lib.Base64

/-!
# The participant context of the admin API

An admin path names the participant context it is about, in base64. Clients write it in any of
four flavours, and the segment is decoded by the first engine that takes it. The segments that
pass are the four encodings of the hub's own id.
-/

namespace IdentityHub

open Base64 (Alphabet Engine)

/-! ## The engines of `base64::engine::general_purpose` -/

def lettersAndDigits : List Char :=
  "ABCDEFGHIJKLMNOPQRSTUVWXYZabcdefghijklmnopqrstuvwxyz0123456789".toList

def standardAlphabet : Alphabet where
  symbols := lettersAndDigits ++ ['+', '/']
  size := by decide
  distinct := by decide
  unpadded := by decide

def urlSafeAlphabet : Alphabet where
  symbols := lettersAndDigits ++ ['-', '_']
  size := by decide
  distinct := by decide
  unpadded := by decide

def standard : Engine where
  alphabet := standardAlphabet
  padded := true

def urlSafe : Engine where
  alphabet := urlSafeAlphabet
  padded := true

def standardNoPad : Engine where
  alphabet := standardAlphabet
  padded := false

def urlSafeNoPad : Engine where
  alphabet := urlSafeAlphabet
  padded := false

/-! ## The path segment -/

/-- `as_bytes`. -/
def utf8Bytes (text : String) : List UInt8 := text.toUTF8.data.toList

/-- `String::from_utf8`. -/
def fromUtf8 (bytes : List UInt8) : Option String := String.fromUTF8? ⟨bytes.toArray⟩

/-- The engines, in the order they are tried. -/
def participantContextEngines : List Engine := [standard, urlSafe, standardNoPad, urlSafeNoPad]

/-- An engine reads ASCII characters only, so the characters of the segment stand for its bytes. -/
def decodeParticipantContext (encoded : String) : Option String :=
  (participantContextEngines.findSome? (fun engine => engine.decode encoded.toList)).bind fromUtf8

/-- What a client may write for an id. -/
def participantContextEncodings (id : String) : List String :=
  participantContextEngines.map (fun engine => String.ofList (engine.encode (utf8Bytes id)))

/-- `params` are the parameters of the matched route, `next` the answer of its handler. -/
def checkParticipantContext (participantContextId : String) (params : String → Option String)
    (next : Response) : Response :=
  let ours := ((params "pc").bind decodeParticipantContext).any (fun id => id = participantContextId)
  if ours then next
  else { status := 404, body := "unknown participant context" }

/-! ## What passes -/

theorem fromUtf8_eq_some {bytes : List UInt8} {text : String} :
    fromUtf8 bytes = some text ↔ bytes = utf8Bytes text := by
  unfold fromUtf8 utf8Bytes
  constructor
  · intro h
    unfold String.fromUTF8? at h
    split at h
    · obtain rfl := Option.some.inj h
      rfl
    · cases h
  · rintro rfl
    have hvalid : (⟨text.toUTF8.data.toList.toArray⟩ : ByteArray).IsValidUTF8 := text.isValidUTF8
    rw [String.fromUTF8?, dif_pos hvalid]
    rfl

theorem alphabets_agree : ∀ E ∈ participantContextEngines, ∀ E' ∈ participantContextEngines,
    Base64.Agree E.alphabet E'.alphabet := by
  have hstandard : Base64.Agree standardAlphabet urlSafeAlphabet := by decide +kernel
  have hurlSafe : Base64.Agree urlSafeAlphabet standardAlphabet := by decide +kernel
  have halphabet : ∀ E ∈ participantContextEngines,
      E.alphabet = standardAlphabet ∨ E.alphabet = urlSafeAlphabet := by
    simp [participantContextEngines, standard, urlSafe, standardNoPad, urlSafeNoPad]
  intro E hE E' hE'
  rcases halphabet E hE with h | h <;> rcases halphabet E' hE' with h' | h' <;> rw [h, h']
  · exact Base64.agree_self _
  · exact hstandard
  · exact hurlSafe
  · exact Base64.agree_self _

/-- The segments that decode to an id. -/
theorem decodeParticipantContext_eq_some {encoded id : String} :
    decodeParticipantContext encoded = some id ↔ encoded ∈ participantContextEncodings id := by
  rw [decodeParticipantContext, Option.bind_eq_some_iff, participantContextEncodings, List.mem_map]
  constructor
  · rintro ⟨bytes, hdecode, htext⟩
    obtain ⟨engine, hengine, hencoded⟩ := (Base64.findSome_decode alphabets_agree).mp hdecode
    refine ⟨engine, hengine, ?_⟩
    rw [← fromUtf8_eq_some.mp htext, ← hencoded, String.ofList_toList]
  · rintro ⟨engine, hengine, rfl⟩
    refine ⟨utf8Bytes id, (Base64.findSome_decode alphabets_agree).mpr ⟨engine, hengine, ?_⟩,
      fromUtf8_eq_some.mpr rfl⟩
    rw [String.toList_ofList]

/-- **Decoding a participant context is unambiguous**: a segment decodes to an id exactly if it is
one of the four encodings of that id, and only with one of the four encodings of the hub's own
id is the handler of an admin route reached. -/
theorem participant_context_unambiguous :
    (∀ encoded id : String, decodeParticipantContext encoded = some id ↔
      encoded ∈ participantContextEncodings id) ∧
    ∀ (participantContextId : String) (params : String → Option String) (next : Response),
      (∀ pc ∈ participantContextEncodings participantContextId, params "pc" = some pc →
        checkParticipantContext participantContextId params next = next) ∧
      ((∀ pc ∈ participantContextEncodings participantContextId, params "pc" ≠ some pc) →
        checkParticipantContext participantContextId params next =
          { status := 404, body := "unknown participant context" }) := by
  refine ⟨fun encoded id => decodeParticipantContext_eq_some, fun ours params next => ⟨?_, ?_⟩⟩
  · intro pc hmem hpc
    have hdecoded := decodeParticipantContext_eq_some.mpr hmem
    rw [checkParticipantContext, hpc, Option.bind_some, hdecoded, Option.any_some]
    exact if_pos (decide_eq_true rfl)
  · intro hother
    rw [checkParticipantContext]
    refine if_neg fun hours => ?_
    obtain ⟨id, hid, hsame⟩ := (Option.any_eq_true _ _).mp hours
    obtain ⟨pc, hpc, hdecoded⟩ := Option.bind_eq_some_iff.mp hid
    obtain rfl := of_decide_eq_true hsame
    exact hother pc (decodeParticipantContext_eq_some.mp hdecoded) hpc

example : participantContextEncodings "tenant>>?~" =
    ["dGVuYW50Pj4/fg==", "dGVuYW50Pj4_fg==", "dGVuYW50Pj4/fg", "dGVuYW50Pj4_fg"] := by decide +kernel

end IdentityHub
