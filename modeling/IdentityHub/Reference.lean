import IdentityHub.External
import IdentityHub.Lib.Base64Url
import IdentityHub.Lib.DidWeb
import IdentityHub.Lib.JsonText

/-!
# A concrete choice of the external functions

`reference` is an `External` whose functions compute. Tokens are symbolic: a
signed token is the text of its header, its payload and the key that signed it,
and it verifies under that key alone. Documents list what is looked up in them;
URLs, dates and the gzip file (one stored block) are the real ones on the inputs
a did:web service meets. The laws other files assume hold of it.
-/

namespace IdentityHub

open Json (Value)

structure ReferenceDocument where
  keys : List (String × String)
  capabilityInvocation : List String
  services : List (String × String)

namespace Reference

/-- The text of a token. -/
def token (header payload : Value) (key : String) : String :=
  String.ofList (Json.Text.print (.array [header, payload, .string key]))

def header (kid : String) : Value :=
  .object [("alg", .string "ES256"), ("kid", .string kid)]

theorem header_kid (kid : String) : (header kid).getStr "kid" = some kid := by
  simp [header, Value.getStr]

def parts (text : String) : Option (Value × Value × String) :=
  match Json.Text.parse text.toList with
  | some (.array [header, payload, .string key]) => some (header, payload, key)
  | _ => none

theorem parts_token (header payload : Value) (key : String) :
    parts (token header payload key) = some (header, payload, key) := by
  unfold parts token
  rw [String.toList_ofList, Json.Text.parse_print]

def decodeJws (text : String) : Except String (Value × Value) :=
  match parts text with
  | some (header, payload, _) => .ok (header, payload)
  | none => .error "not a compact JWS"

def verifyJws (text key : String) : Except String Unit :=
  match parts text with
  | some (_, _, signer) => if signer = key then .ok () else .error "signature error"
  | none => .error "not a compact JWS"

theorem decodeJws_token (header payload : Value) (key : String) :
    decodeJws (token header payload key) = .ok (header, payload) := by
  rw [decodeJws, parts_token]

theorem verifyJws_token (header payload : Value) (signer key : String) :
    verifyJws (token header payload signer) key =
      if signer = key then .ok () else .error "signature error" := by
  rw [verifyJws, parts_token]

def lookup (entries : List (String × String)) (key error : String) : Except String String :=
  match entries.lookup key with
  | some value => .ok value
  | none => .error error

def didWebToUrl (did : String) (insecureHttp : Bool) : Except String String :=
  match DidWeb.toUrl (if insecureHttp then .http else .https) did with
  | some url => .ok url
  | none => .error ("not a did:web identifier: " ++ did)

/-- Scheme and host of `scheme://host[:port][/path]`. -/
def parseUrl (url : String) : Except String Url :=
  let scheme := url.toList.takeWhile (· != ':')
  match Text.stripPrefix "://".toList (url.toList.dropWhile (· != ':')) with
  | none => .error "relative URL without a base"
  | some rest =>
      let host := rest.takeWhile (fun c => c != '/' && c != ':')
      .ok { scheme := String.ofList (scheme.map Char.toLower)
            host := if host = [] then none else some (String.ofList (host.map Char.toLower)) }

def statusText (status : ℕ) : String :=
  match status with
  | 400 => "400 Bad Request"
  | 401 => "401 Unauthorized"
  | 403 => "403 Forbidden"
  | 404 => "404 Not Found"
  | 500 => "500 Internal Server Error"
  | 503 => "503 Service Unavailable"
  | status => toString status

/-- Year, month and day of a day counted from 1970-01-01. -/
def civilFromDays (days : ℕ) : ℕ × ℕ × ℕ :=
  -- eras of 400 years, counted from 0000-03-01
  let shifted := days + 719468
  let dayOfEra := shifted % 146097
  let yearOfEra :=
    (dayOfEra - dayOfEra / 1460 + dayOfEra / 36524 - dayOfEra / 146096) / 365
  let dayOfYear := dayOfEra - (365 * yearOfEra + yearOfEra / 4 - yearOfEra / 100)
  let month := (5 * dayOfYear + 2) / 153
  let year := yearOfEra + shifted / 146097 * 400
  (if month < 10 then year else year + 1, if month < 10 then month + 3 else month - 9,
    dayOfYear - (153 * month + 2) / 5 + 1)

def pad (width n : ℕ) : String :=
  let digits := (toString n).toList
  String.ofList (List.replicate (width - digits.length) '0' ++ digits)

/-- Dates end with the year 262142. -/
def rfc3339 (secs : ℕ) : Option String :=
  let (year, month, day) := civilFromDays (secs / 86400)
  if 262142 < year then none
  else some (pad 4 year ++ "-" ++ pad 2 month ++ "-" ++ pad 2 day ++ "T" ++
    pad 2 (secs / 3600 % 24) ++ ":" ++ pad 2 (secs / 60 % 60) ++ ":" ++ pad 2 (secs % 60) ++ "Z")

example : rfc3339 1700000000 = some "2023-11-14T22:13:20Z" := by decide +kernel

def littleEndian (width n : ℕ) : List UInt8 :=
  (List.range width).map (fun i => UInt8.ofNat (n / 256 ^ i))

/-- The CRC-32 of gzip, bit by bit. -/
def crc32 (bytes : List UInt8) : ℕ :=
  let step := fun (c : ℕ) (_ : ℕ) => if c % 2 = 1 then (c / 2) ^^^ 0xEDB88320 else c / 2
  (bytes.foldl (fun c b => (List.range 8).foldl step (c ^^^ b.toNat)) 0xFFFFFFFF) ^^^ 0xFFFFFFFF

example : crc32 "123456789".toUTF8.toList = 0xCBF43926 := by decide +kernel

/-- Ten bytes of file header and five of block header. -/
def gzipHeader (length : ℕ) : List UInt8 :=
  [0x1f, 0x8b, 8, 0, 0, 0, 0, 0, 0, 255, 1] ++ littleEndian 2 length ++
    littleEndian 2 (65535 - length)

def gzip (bytes : List UInt8) : List UInt8 :=
  gzipHeader bytes.length ++ bytes ++
    (littleEndian 4 (crc32 bytes) ++ littleEndian 4 bytes.length)

def gunzip (file : List UInt8) : Option (List UInt8) :=
  if file.length < 23 then none else some ((file.drop 15).take (file.length - 23))

theorem gunzip_gzip (bytes : List UInt8) : gunzip (gzip bytes) = some bytes := by
  have hend : (littleEndian 4 (crc32 bytes) ++ littleEndian 4 bytes.length).length = 8 := by
    simp [littleEndian]
  have hlen : (gzip bytes).length = 15 + bytes.length + 8 := by
    rw [gzip, List.length_append, List.length_append, hend]
    rfl
  have hsub : 15 + bytes.length + 8 - 23 = bytes.length := by omega
  have hdrop : (gzip bytes).drop 15 = bytes ++
      (littleEndian 4 (crc32 bytes) ++ littleEndian 4 bytes.length) := by
    rw [gzip, List.append_assoc]
    rfl
  unfold gunzip
  rw [hlen, if_neg (by omega), hsub, hdrop, List.take_left]

/-- Padded base64 in the standard alphabet; the text must be the one its bytes
encode to. -/
def base64Standard (text : String) : Option (List UInt8) :=
  let urlSafe := text.toList.map (fun c => if c = '+' then '-' else if c = '/' then '_' else c)
  let digits := urlSafe.filter (· != '=')
  (Base64Url.decode digits).bind (fun bytes =>
    if urlSafe = digits ++ List.replicate (urlSafe.length - digits.length) '=' ∧
        Base64Url.encode bytes = digits ∧ urlSafe.length % 4 = 0 then some bytes
    else none)

example : base64Standard "aHViOnNlY3JldA==" = some "hub:secret".toUTF8.toList := by decide +kernel

def jsonText (v : Value) : String := String.ofList (Json.Text.print v)

end Reference

open Reference in
/-- The external functions of the sample runs. -/
def reference : External where
  DidDocument := ReferenceDocument
  SigningKey := String
  VerifyingKey := String
  signJws payload key kid := token (header kid) payload key
  decodeJwsUnverified := decodeJws
  verifyJwsSignature := verifyJws
  verifyingKey key := key
  findVerifyingKey doc kid :=
    lookup doc.keys kid ("no verification method '" ++ kid ++ "' in the DID document")
  capabilityInvocation doc := doc.capabilityInvocation
  serviceEndpointUrl doc kind :=
    lookup doc.services kind ("no service of type '" ++ kind ++ "' in the DID document")
  didWebToUrl := didWebToUrl
  jwkToVerifyingKey x _ := .ok x
  parseUrl := parseUrl
  statusText := statusText
  rfc3339 := rfc3339
  rfc3339Max := "+262142-12-31T23:59:59Z"
  gzip := gzip
  base64Standard := base64Standard
  jsonText := jsonText
  credentialRequestError _ := "invalid type"

section

variable (text kid : String) (payload : Value)

theorem reference_signJws (key : reference.SigningKey) :
    reference.signJws payload key kid = Reference.token (Reference.header kid) payload key := rfl

theorem reference_decodeJws :
    reference.decodeJwsUnverified text = Reference.decodeJws text := rfl

theorem reference_verifyJws (key : reference.VerifyingKey) :
    reference.verifyJwsSignature text key = Reference.verifyJws text key := rfl

end

theorem reference_decode_sign (payload : Value) (kid : String) (key : reference.SigningKey) :
    reference.decodeJwsUnverified (reference.signJws payload key kid) =
      .ok (Reference.header kid, payload) := by
  rw [reference_signJws, reference_decodeJws]
  exact Reference.decodeJws_token (Reference.header kid) payload key

theorem reference_verify_sign (payload : Value) (kid : String) (key : reference.SigningKey) :
    reference.verifyJwsSignature (reference.signJws payload key kid) (reference.verifyingKey key) =
      .ok () := by
  rw [reference_signJws, reference_verifyJws]
  exact (Reference.verifyJws_token (Reference.header kid) payload key key).trans (if_pos rfl)

theorem reference_signRoundTrip : reference.SignRoundTrip := by
  intro payload key kid
  refine ⟨Reference.header kid, ?_, Reference.header_kid kid⟩
  rw [reference_signJws, reference_decodeJws]
  exact Reference.decodeJws_token (Reference.header kid) payload key

theorem reference_signVerifies : reference.SignVerifies := fun payload key kid =>
  reference_verify_sign payload kid key

end IdentityHub
