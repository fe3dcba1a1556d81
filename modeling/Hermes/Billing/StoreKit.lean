import Hermes.Library.Calendar
import Hermes.Library.JsonDecoder
import Hermes.Library.Program

/-!
# Verification of StoreKit transactions

A compact JWS carries a chain of certificates in its header.  Each certificate has to be signed by
the next, the last one has to be a pinned root or signed by one, and the token has to be signed with
the key of the first.  The X.509 primitives and the JWT library are arguments; base64, JSON and the
conversion of dates are Python's own.  In the test mode a token under `HS256` is checked with a
shared secret instead.
-/

namespace Hermes.Billing.StoreKit

open Encoding JsonDecoder

inductive PyException
  /-- `ValueError`, `binascii.Error` among them. -/
  | valueError
  | typeError
  | overflowError
  /-- What `fromtimestamp` raises outside the years it knows. -/
  | outOfRange
  | recursionError
  | invalidSignature
  | unsupportedAlgorithm
  | unexpected
  deriving DecidableEq, Repr

inductive Raised
  /-- `ValidationFailedError`. -/
  | validationFailed (message : String)
  | python (raised : PyException)
  deriving DecidableEq, Repr

abbrev Claims := List (List Nat × Parsed)

/-! ## Base64 -/

/-- The six bits of a character of the base64 alphabet. -/
def base64Value (code : Nat) : Option Nat :=
  if 0x41 ≤ code ∧ code ≤ 0x5a then some (code - 0x41)
  else if 0x61 ≤ code ∧ code ≤ 0x7a then some (code - 0x61 + 26)
  else if 0x30 ≤ code ∧ code ≤ 0x39 then some (code - 0x30 + 52)
  else if code = '+'.toNat then some 62
  else if code = '/'.toNat then some 63
  else none

/-- How far `a2b_base64` has come: the bytes written, the characters of the open group, the bits
left over from the last one, and the padding since. -/
structure Base64Reader where
  written : List UInt8 := []
  position : Nat := 0
  left : Nat := 0
  pads : Nat := 0

def Base64Reader.take (reader : Base64Reader) (value : Nat) : Base64Reader :=
  match reader.position with
  | 0 => ⟨reader.written, 1, value, 0⟩
  | 1 => ⟨reader.written ++ [UInt8.ofNat (reader.left * 4 + value / 16)], 2, value % 16, 0⟩
  | 2 => ⟨reader.written ++ [UInt8.ofNat (reader.left * 16 + value / 4)], 3, value % 4, 0⟩
  | _ => ⟨reader.written ++ [UInt8.ofNat (reader.left * 64 + value)], 0, 0, 0⟩

/-- `a2b_base64`: characters outside the alphabet are passed over, and padding which closes a group
ends the text. -/
def a2bBase64 : Base64Reader → List Nat → Option (List UInt8)
  | reader, [] => if reader.position = 0 then some reader.written else none
  | reader, code :: rest =>
      if code = '='.toNat then
        if 2 ≤ reader.position then
          if 4 ≤ reader.position + (reader.pads + 1) then some reader.written
          else a2bBase64 { reader with pads := reader.pads + 1 } rest
        else a2bBase64 reader rest
      else
        match base64Value code with
        | none => a2bBase64 reader rest
        | some value => a2bBase64 (reader.take value) rest

/-- `base64.b64decode` of a string. -/
def b64decode (text : List Nat) : Except PyException (List UInt8) :=
  if text.all (· < 0x80) then
    match a2bBase64 {} text with
    | some bytes => .ok bytes
    | none => .error .valueError
  else .error .valueError

/-- `base64.urlsafe_b64decode`. -/
def urlsafeB64decode (text : List Nat) : Except PyException (List UInt8) :=
  b64decode (text.map fun code =>
    if code = '-'.toNat then '+'.toNat else if code = '_'.toNat then '/'.toNat else code)

/-- `_b64url_decode`. -/
def b64urlDecode (segment : List Nat) : Except PyException (List UInt8) :=
  urlsafeB64decode (segment ++ List.replicate ((4 - segment.length % 4) % 4) '='.toNat)

/-- `json.loads` of a byte string, with room for containers nested up to a depth. -/
def loadsBytesWithin (depth : Nat) (bytes : List UInt8) : Except PyException Parsed :=
  match decodeBytes bytes with
  | none => .error .valueError
  | some text =>
      match loadsWithin depth text with
      | .ok value => .ok value
      | .error .value => .error .valueError
      | .error .recursion => .error .recursionError

/-! ## Numbers and dates -/

/-- `int` of a string: a sign, and decimal digits which single underscores may part. -/
def intOfText (text : List Nat) : Option Int :=
  let body := strip text
  let negative := body.head? == some '-'.toNat
  let digits := if negative || body.head? == some '+'.toNat then body.tail else body
  let groups := digits.splitOn '_'.toNat
  if groups.any List.isEmpty then none
  else
    (Text.toInt (groups.flatten.map Char.ofNat)).map fun value =>
      if negative then -(value : Int) else value

/-- `int`. -/
def pyInt : Parsed → Except PyException Int
  | .int value => .ok value
  | .bool value => .ok (if value then 1 else 0)
  | .float (.finite value) => .ok (value.num.tdiv value.den)
  | .float .nan => .error .valueError
  | .float (.infinite _) => .error .overflowError
  | .str text =>
      match intOfText text with
      | some value => .ok value
      | none => .error .valueError
  | _ => .error .typeError

/-- `value / 1000`. -/
def perThousand (value : Int) : Except PyException ℚ :=
  match nearestFloat (decide (value < 0)) (|value| / 1000) with
  | .finite quotient => .ok quotient
  | _ => .error .overflowError

/-- `datetime.fromtimestamp` in UTC, in microseconds: the fraction is scaled as a float and rounded
to the even neighbour. -/
def fromtimestamp (seconds : ℚ) : Except PyException Int :=
  let whole := seconds.num.tdiv seconds.den
  let part := seconds - whole
  let moment :=
    match nearestFloat (decide (part < 0)) (|part| * 1000000) with
    | .finite micros => whole * 1000000 + roundHalfEven micros
    | _ => whole * 1000000
  if Calendar.Representable moment then .ok moment else .error .outOfRange

/-! ## The primitives -/

/-- The kinds of public keys which are told apart. -/
inductive KeyKind
  | ellipticCurve
  | rsa
  | unsupported
  deriving DecidableEq, Repr

/-- What `jwt.decode` raises: an `InvalidTokenError` or anything else. -/
inductive JwtError
  | invalidToken
  | unexpected (raised : PyException)
  deriving DecidableEq, Repr

/-- X.509 certificates, their keys, and the JWT library. -/
structure Primitives (Certificate PublicKey HashAlgorithm : Type) where
  /-- `x509.load_der_x509_certificate`. -/
  loadDer : List UInt8 → Except PyException Certificate
  /-- `public_bytes(Encoding.DER)`. -/
  publicBytes : Certificate → List UInt8
  signatureHashAlgorithm : Certificate → Except PyException (Option HashAlgorithm)
  publicKey : Certificate → Except PyException PublicKey
  keyKind : PublicKey → KeyKind
  /-- `verify` of the signature of the first certificate, in the manner of the kind of the key. -/
  verify : PublicKey → HashAlgorithm → Certificate → Except PyException Unit
  /-- `jwt.decode` with a public key and `ES256`. -/
  decodeEs256 : List Nat → PublicKey → Except JwtError Claims
  /-- `jwt.decode` with a secret and `HS256`. -/
  decodeHs256 : List Nat → String → Except JwtError Claims
  /-- `repr` of a decoded value which is no string. -/
  repr : Parsed → Except PyException (List Nat)
  /-- `str.lower`. -/
  lower : List Nat → List Nat

/-- What the verifier reads besides the transaction. -/
structure Settings (Certificate : Type) where
  /-- `APPSTORE_BUNDLE_ID`. -/
  bundleId : String
  /-- `APPSTORE_ENVIRONMENT`. -/
  environment : String
  /-- The certificates under `APPSTORE_ROOT_CERT_DIR`. -/
  roots : List Certificate
  /-- `STOREKIT_TEST_MODE`. -/
  storekitTestMode : Bool
  /-- `STOREKIT_TEST_SECRET`. -/
  storekitTestSecret : String
  /-- How deep the decoder may nest containers. -/
  recursionRoom : Nat

/-- `VerifiedTransaction`. -/
structure VerifiedTransaction where
  transactionId : List Nat
  originalTransactionId : List Nat
  productId : List Nat
  expiresAt : Option Int
  revoked : Bool
  environment : List Nat
  deriving DecidableEq, Repr

section Verifier

variable {Certificate PublicKey HashAlgorithm : Type}
  (primitives : Primitives Certificate PublicKey HashAlgorithm) (settings : Settings Certificate)

/-- What a step outside the `try` blocks raises, is raised. -/
def uncaught {α : Type} : Except PyException α → Except Raised α
  | .ok value => .ok value
  | .error raised => .error (.python raised)

/-- `except (ValueError, json.JSONDecodeError)`. -/
def onValueError {α : Type} (message : String) : Except PyException α → Except Raised α
  | .ok value => .ok value
  | .error .valueError => .error (.validationFailed message)
  | .error raised => .error (.python raised)

/-- `except jwt.InvalidTokenError`. -/
def onInvalidToken {α : Type} : Except JwtError α → Except Raised α
  | .ok value => .ok value
  | .error .invalidToken => .error (.validationFailed "StoreKit JWS signature invalid")
  | .error (.unexpected raised) => .error (.python raised)

/-- `str`. -/
def pyStr : Parsed → Except PyException (List Nat)
  | .str text => .ok text
  | value => primitives.repr value

/-- `str(fields.get(key, default))`. -/
def strField (fields : Claims) (key : String) (default : List Nat) :
    Except PyException (List Nat) :=
  match Parsed.get? fields key with
  | some value => pyStr primitives value
  | none => .ok default

/-- `_jws_header`. -/
def jwsHeader (jws : List Nat) : Except Raised Claims := do
  let segment := jws.takeWhile (· ≠ '.'.toNat)
  let header ← onValueError "StoreKit JWS header is not valid base64url JSON"
    ((b64urlDecode segment).bind (loadsBytesWithin settings.recursionRoom))
  match header with
  | .obj fields => .ok fields
  | _ => .error (.validationFailed "StoreKit JWS header must be a JSON object")

/-- One entry of `x5c`. -/
def loadCertificate : Parsed → Except PyException Certificate
  | .str text => (b64decode text).bind primitives.loadDer
  | _ => .error .typeError

/-- `_load_certificate_chain`. -/
def loadCertificateChain (jws : List Nat) : Except Raised (List Certificate) := do
  let header ← jwsHeader settings jws
  match Parsed.get? header "x5c" with
  | some (.arr (entry :: entries)) =>
      uncaught ((entry :: entries).mapM (loadCertificate primitives))
  | _ => .error (.validationFailed "StoreKit JWS missing x5c certificate chain")

/-- `_verify_signed_by`. -/
def verifySignedBy (child issuer : Certificate) : Except Raised Unit := do
  match ← uncaught (primitives.signatureHashAlgorithm child) with
  | none => .error (.validationFailed "certificate missing signature hash algorithm")
  | some hash =>
      let key ← uncaught (primitives.publicKey issuer)
      match primitives.keyKind key with
      | .unsupported =>
          .error (.validationFailed "Unsupported certificate key type in StoreKit chain")
      | _ => uncaught (primitives.verify key hash child)

/-- The loop of `_verify_chain` over neighbours. -/
def verifyLinks : List Certificate → Except Raised Unit
  | child :: issuer :: rest => do
      verifySignedBy primitives child issuer
      verifyLinks (issuer :: rest)
  | _ => .ok ()

/-- The loop of `_verify_chain` over the pinned roots: whatever one raises, the next is tried. -/
def anchored (last : Certificate) (roots : List Certificate) : Bool :=
  roots.any fun trusted =>
    match verifySignedBy primitives last trusted with
    | .ok () => true
    | .error _ => false

/-- `_verify_chain` of a chain with its last certificate. -/
def verifyChain (chain : List Certificate) (last : Certificate) : Except Raised Unit := do
  verifyLinks primitives chain
  if (settings.roots.map primitives.publicBytes).contains (primitives.publicBytes last) then
    .ok ()
  else if anchored primitives last settings.roots then .ok ()
  else
    .error (.validationFailed "StoreKit certificate chain not anchored to a trusted root")

def expiresAt (payload : Claims) : Except PyException (Option Int) :=
  match Parsed.get? payload "expiresDate" with
  | none | some .null => .ok none
  | some value => do
      let millis ← pyInt value
      let seconds ← perThousand millis
      some <$> fromtimestamp seconds

/-- The `bundleId` of a payload is the configured one. -/
def bundleMatches (payload : Claims) : Bool :=
  match Parsed.get? payload "bundleId" with
  | some (.str bundle) => bundle == codes settings.bundleId
  | _ => false

def present (payload : Claims) (key : String) : Bool :=
  match Parsed.get? payload key with
  | none | some .null => false
  | some _ => true

/-- `_normalize_payload`. -/
def normalizePayload (payload : Claims) : Except Raised VerifiedTransaction :=
  if settings.bundleId ≠ "" ∧ bundleMatches settings payload = false then
    .error (.validationFailed "StoreKit transaction bundleId mismatch")
  else do
    let environment ←
      uncaught (strField primitives payload "environment" (codes settings.environment))
    let expiresAt ← uncaught (expiresAt payload)
    match Parsed.get? payload "transactionId" with
    | none => .error (.validationFailed "StoreKit transaction missing transactionId")
    | some value => do
        let transactionId ← uncaught (pyStr primitives value)
        let originalTransactionId ←
          uncaught (strField primitives payload "originalTransactionId" transactionId)
        let productId ← uncaught (strField primitives payload "productId" [])
        .ok ⟨transactionId, originalTransactionId, productId, expiresAt,
          present payload "revocationDate", primitives.lower environment⟩

/-- `_verify_real_transaction`. -/
def verifyRealTransaction (jws : List Nat) : Except Raised VerifiedTransaction := do
  let chain ← loadCertificateChain primitives settings jws
  match chain with
  | [] => .error (.python .unexpected)
  | leaf :: rest =>
      if settings.roots.isEmpty then
        .error (.validationFailed ("App Store root certificates not configured " ++
          "(APPSTORE_ROOT_CERT_DIR); cannot verify StoreKit transaction"))
      else do
        verifyChain primitives settings chain ((leaf :: rest).getLast (List.cons_ne_nil leaf rest))
        let key ← uncaught (primitives.publicKey leaf)
        let payload ← onInvalidToken (primitives.decodeEs256 jws key)
        normalizePayload primitives settings payload

/-- `_verify_test_transaction`. -/
def verifyTestTransaction (jws : List Nat) : Except Raised VerifiedTransaction := do
  let payload ← onInvalidToken (primitives.decodeHs256 jws settings.storekitTestSecret)
  normalizePayload primitives settings payload

/-- `_test_mode`: the flag and a secret. -/
def testMode : Bool := settings.storekitTestMode && !(settings.storekitTestSecret == "")

/-- `StoreKitVerifier.verify`. -/
def verify (jws : List Nat) : Except Raised VerifiedTransaction :=
  if jws.count '.'.toNat ≠ 2 then
    .error (.validationFailed "StoreKit transaction must be a compact JWS string")
  else do
    let header ← jwsHeader settings jws
    let alg ← uncaught (strField primitives header "alg" [])
    if alg = codes "HS256" then
      if testMode settings then verifyTestTransaction primitives settings jws
      else .error (.validationFailed "StoreKit JWS signature invalid")
    else verifyRealTransaction primitives settings jws

/-! ## Trust -/

/-- A certificate is signed with the key of another one. -/
def SignedBy (child issuer : Certificate) : Prop :=
  ∃ hash key, primitives.signatureHashAlgorithm child = .ok (some hash) ∧
    primitives.publicKey issuer = .ok key ∧ primitives.keyKind key ≠ .unsupported ∧
    primitives.verify key hash child = .ok ()

inductive LeadsTo (roots : List Certificate) : List Certificate → Prop
  | pinned {last : Certificate}
      (listed : primitives.publicBytes last ∈ roots.map primitives.publicBytes) :
      LeadsTo roots [last]
  | rooted {last trusted : Certificate} (listed : trusted ∈ roots)
      (signed : SignedBy primitives last trusted) : LeadsTo roots [last]
  | link {child issuer : Certificate} {rest : List Certificate}
      (signed : SignedBy primitives child issuer) (leads : LeadsTo roots (issuer :: rest)) :
      LeadsTo roots (child :: issuer :: rest)

/-- The chain of a token, as it is loaded, leads to a pinned root and has a leaf with the key. -/
def Trusted (jws : List Nat) (key : PublicKey) : Prop :=
  ∃ leaf rest, loadCertificateChain primitives settings jws = .ok (leaf :: rest) ∧
    LeadsTo primitives settings.roots (leaf :: rest) ∧ primitives.publicKey leaf = .ok key

/-- A transaction which was checked with the leaf key of a chain that leads to a pinned root. -/
def ChainSigned (jws : List Nat) (transaction : VerifiedTransaction) : Prop :=
  ∃ key payload, Trusted primitives settings jws key ∧
    primitives.decodeEs256 jws key = .ok payload ∧
    normalizePayload primitives settings payload = .ok transaction

/-- The header of a compact token names an algorithm. -/
def Names (jws alg : List Nat) : Prop :=
  jws.count '.'.toNat = 2 ∧ ∃ header, jwsHeader settings jws = .ok header ∧
    strField primitives header "alg" [] = .ok alg

/-- A token which is checked with the secret of the test mode. -/
def Tested (jws : List Nat) : Prop :=
  testMode settings = true ∧ Names primitives settings jws (codes "HS256")

def Chained (jws : List Nat) : Prop :=
  ∃ alg, alg ≠ codes "HS256" ∧ Names primitives settings jws alg

/-- A transaction under `HS256` which was checked with the secret of the test mode. -/
def TestSigned (jws : List Nat) (transaction : VerifiedTransaction) : Prop :=
  Tested primitives settings jws ∧
    ∃ payload, primitives.decodeHs256 jws settings.storekitTestSecret = .ok payload ∧
      normalizePayload primitives settings payload = .ok transaction

/-- The steps outside the `try` blocks which a token comes to, and what they raise. -/
inductive Unguarded (jws : List Nat) : PyException → Prop
  | header (compact : jws.count '.'.toNat = 2)
      (deep : jwsHeader settings jws = .error (.python .recursionError)) :
      Unguarded jws .recursionError
  | algorithm {header : Claims} {raised : PyException} (compact : jws.count '.'.toNat = 2)
      (read : jwsHeader settings jws = .ok header)
      (raises : strField primitives header "alg" [] = .error raised) : Unguarded jws raised
  | entry {header : Claims} {before after : List Parsed} {entry : Parsed} {raised : PyException}
      (chained : Chained primitives settings jws) (read : jwsHeader settings jws = .ok header)
      (carried : Parsed.get? header "x5c" = some (.arr (before ++ entry :: after)))
      (loaded : ∀ other ∈ before, ∃ certificate, loadCertificate primitives other = .ok certificate)
      (raises : loadCertificate primitives entry = .error raised) : Unguarded jws raised
  | link {before after : List Certificate} {child issuer : Certificate} {raised : PyException}
      (chained : Chained primitives settings jws)
      (loaded : loadCertificateChain primitives settings jws =
        .ok (before ++ child :: issuer :: after))
      (pinned : settings.roots ≠ [])
      (linked : verifyLinks primitives (before ++ [child]) = .ok ())
      (raises : verifySignedBy primitives child issuer = .error (.python raised)) :
      Unguarded jws raised
  | leaf {leaf : Certificate} {rest : List Certificate} {raised : PyException}
      (chained : Chained primitives settings jws)
      (loaded : loadCertificateChain primitives settings jws = .ok (leaf :: rest))
      (leads : LeadsTo primitives settings.roots (leaf :: rest))
      (raises : primitives.publicKey leaf = .error raised) : Unguarded jws raised
  | token {key : PublicKey} {raised : PyException} (chained : Chained primitives settings jws)
      (trusted : Trusted primitives settings jws key)
      (raises : primitives.decodeEs256 jws key = .error (.unexpected raised)) : Unguarded jws raised
  | testToken {raised : PyException} (tested : Tested primitives settings jws)
      (raises : primitives.decodeHs256 jws settings.storekitTestSecret =
        .error (.unexpected raised)) : Unguarded jws raised
  | payload {key : PublicKey} {payload : Claims} {raised : PyException}
      (chained : Chained primitives settings jws) (trusted : Trusted primitives settings jws key)
      (decoded : primitives.decodeEs256 jws key = .ok payload)
      (raises : normalizePayload primitives settings payload = .error (.python raised)) :
      Unguarded jws raised
  | testPayload {payload : Claims} {raised : PyException} (tested : Tested primitives settings jws)
      (decoded : primitives.decodeHs256 jws settings.storekitTestSecret = .ok payload)
      (raises : normalizePayload primitives settings payload = .error (.python raised)) :
      Unguarded jws raised

end Verifier

section Proofs

variable {Certificate PublicKey HashAlgorithm : Type}
  {primitives : Primitives Certificate PublicKey HashAlgorithm} {settings : Settings Certificate}
  {jws : List Nat} {chain : List Certificate}

theorem uncaught_eq_ok {α : Type} {step : Except PyException α} {value : α}
    (succeeded : uncaught step = .ok value) : step = .ok value := by
  cases step with
  | ok other =>
      cases succeeded
      rfl
  | error raised => cases succeeded

theorem uncaught_eq_error {α : Type} {step : Except PyException α} {raised : Raised}
    (failed : uncaught step = .error raised) :
    ∃ other, raised = .python other ∧ step = .error other := by
  cases step with
  | ok value => cases failed
  | error other =>
      cases failed
      exact ⟨other, rfl, rfl⟩

theorem onInvalidToken_eq_ok {α : Type} {step : Except JwtError α} {value : α}
    (succeeded : onInvalidToken step = .ok value) : step = .ok value := by
  cases step with
  | ok other =>
      cases succeeded
      rfl
  | error raised => cases raised <;> cases succeeded

theorem onInvalidToken_eq_python {α : Type} {step : Except JwtError α} {raised : PyException}
    (failed : onInvalidToken step = .error (.python raised)) :
    step = .error (.unexpected raised) := by
  cases step with
  | ok value => cases failed
  | error other =>
      cases other with
      | invalidToken => cases failed
      | unexpected raises =>
          cases failed
          rfl

theorem b64decode_eq_error {text : List Nat} {raised : PyException}
    (failed : b64decode text = .error raised) : raised = .valueError := by
  rw [b64decode] at failed
  split at failed
  · split at failed
    · cases failed
    · cases failed
      rfl
  · cases failed
    rfl

theorem loadsBytesWithin_eq_error {depth : Nat} {bytes : List UInt8} {raised : PyException}
    (failed : loadsBytesWithin depth bytes = .error raised) :
    raised = .valueError ∨ raised = .recursionError := by
  rw [loadsBytesWithin] at failed
  split at failed
  · cases failed
    exact .inl rfl
  · split at failed
    · cases failed
    · cases failed
      exact .inl rfl
    · cases failed
      exact .inr rfl

theorem jwsHeader_eq_python {raised : PyException}
    (failed : jwsHeader settings jws = .error (.python raised)) : raised = .recursionError := by
  obtain undecoded | ⟨header, -, refused⟩ := except_bind_eq_error failed
  · cases decoded : (b64urlDecode (jws.takeWhile (· ≠ '.'.toNat))).bind
      (loadsBytesWithin settings.recursionRoom) with
    | ok value =>
        rw [decoded] at undecoded
        cases undecoded
    | error other =>
        rw [decoded] at undecoded
        have kinds : other = .valueError ∨ other = .recursionError := by
          obtain unread | ⟨bytes, -, unscanned⟩ := except_bind_eq_error decoded
          · exact .inl (b64decode_eq_error unread)
          · exact loadsBytesWithin_eq_error unscanned
        obtain rfl | rfl := kinds
        · cases undecoded
        · cases undecoded
          rfl
  · cases header <;> cases refused

theorem mapM_eq_error {α β : Type} {step : α → Except PyException β} {items : List α}
    {raised : PyException} (failed : items.mapM step = .error raised) :
    ∃ before item after, items = before ++ item :: after ∧
      (∀ other ∈ before, ∃ value, step other = .ok value) ∧ step item = .error raised := by
  induction items with
  | nil => cases failed
  | cons item later induction =>
      rw [List.mapM_cons] at failed
      obtain first | ⟨value, passed, rest⟩ := except_bind_eq_error failed
      · exact ⟨[], item, later, rfl, List.forall_mem_nil _, first⟩
      · obtain among | ⟨values, -, impossible⟩ := except_bind_eq_error rest
        · obtain ⟨before, other, after, rfl, loaded, raises⟩ := induction among
          exact ⟨item :: before, other, after, rfl,
            List.forall_mem_cons.mpr ⟨⟨value, passed⟩, loaded⟩, raises⟩
        · cases impossible

/-- Loading the chain raises a `ValidationFailedError` or what an entry of `x5c` raises. -/
theorem loadCertificateChain_eq_python {raised : PyException}
    (chained : Chained primitives settings jws)
    (failed : loadCertificateChain primitives settings jws = .error (.python raised)) :
    Unguarded primitives settings jws raised := by
  obtain unread | ⟨header, read, unloaded⟩ := except_bind_eq_error failed
  · obtain ⟨alg, -, -, header, read, -⟩ := chained
    cases unread.symm.trans read
  · split at unloaded
    next entry entries carried =>
      obtain ⟨other, same, raises⟩ := uncaught_eq_error unloaded
      cases same
      obtain ⟨before, culprit, after, split_eq, loaded, raises⟩ := mapM_eq_error raises
      exact .entry chained read (split_eq ▸ carried) loaded raises
    · cases unloaded

theorem signedBy_of_ok {child issuer : Certificate}
    (verified : verifySignedBy primitives child issuer = .ok ()) :
    SignedBy primitives child issuer := by
  obtain ⟨algorithm, hashed, verified⟩ := except_bind_eq_ok verified
  cases algorithm with
  | none => cases verified
  | some hash =>
      obtain ⟨key, keyed, verified⟩ := except_bind_eq_ok verified
      refine ⟨hash, key, uncaught_eq_ok hashed, uncaught_eq_ok keyed, ?_⟩
      cases kind : primitives.keyKind key with
      | unsupported =>
          rw [kind] at verified
          cases verified
      | ellipticCurve =>
          rw [kind] at verified
          exact ⟨by decide, uncaught_eq_ok verified⟩
      | rsa =>
          rw [kind] at verified
          exact ⟨by decide, uncaught_eq_ok verified⟩

/-- A chain whose neighbours are verified leads where its last certificate leads. -/
theorem leadsTo_of_links {roots : List Certificate} {leaf : Certificate}
    {rest : List Certificate} (linked : verifyLinks primitives (leaf :: rest) = .ok ())
    (ends : LeadsTo primitives roots [(leaf :: rest).getLast (List.cons_ne_nil leaf rest)]) :
    LeadsTo primitives roots (leaf :: rest) := by
  induction rest generalizing leaf with
  | nil => exact ends
  | cons issuer rest induction =>
      rw [verifyLinks] at linked
      obtain ⟨⟨⟩, signed, linked⟩ := except_bind_eq_ok linked
      exact .link (signedBy_of_ok signed) (induction linked ends)

theorem verifyLinks_eq_python {raised : PyException}
    (failed : verifyLinks primitives chain = .error (.python raised)) :
    ∃ before after child issuer, chain = before ++ child :: issuer :: after ∧
      verifyLinks primitives (before ++ [child]) = .ok () ∧
      verifySignedBy primitives child issuer = .error (.python raised) := by
  fun_induction verifyLinks primitives chain with
  | case1 child issuer rest induction =>
      obtain broken | ⟨⟨⟩, signed, later⟩ := except_bind_eq_error failed
      · exact ⟨[], rest, child, issuer, rfl, rfl, broken⟩
      · obtain ⟨before, after, other, further, split_eq, linked, raises⟩ := induction later
        refine ⟨child :: before, after, other, further, ?_, ?_, raises⟩
        · rw [split_eq, List.cons_append]
        · cases before with
          | nil =>
              cases split_eq
              simp only [List.cons_append, List.nil_append, verifyLinks, signed]
              rfl
          | cons first before =>
              cases split_eq
              simp only [List.cons_append, verifyLinks, signed] at linked ⊢
              exact linked
  | case2 => cases failed

theorem exists_of_anchored {last : Certificate} {roots : List Certificate}
    (found : anchored primitives last roots = true) :
    ∃ trusted ∈ roots, SignedBy primitives last trusted := by
  obtain ⟨trusted, listed, verified⟩ := List.any_eq_true.mp found
  refine ⟨trusted, listed, signedBy_of_ok ?_⟩
  cases outcome : verifySignedBy primitives last trusted with
  | ok value => rfl
  | error raised =>
      rw [outcome] at verified
      cases verified

theorem leadsTo_of_verifyChain {leaf : Certificate} {rest : List Certificate}
    (verified : verifyChain primitives settings (leaf :: rest)
      ((leaf :: rest).getLast (List.cons_ne_nil leaf rest)) = .ok ()) :
    LeadsTo primitives settings.roots (leaf :: rest) := by
  obtain ⟨⟨⟩, linked, verified⟩ := except_bind_eq_ok verified
  apply leadsTo_of_links linked
  split at verified
  next listed => exact .pinned (List.contains_iff_mem.mp listed)
  · split at verified
    next found =>
      obtain ⟨trusted, listed, signed⟩ := exists_of_anchored found
      exact .rooted listed signed
    · cases verified

theorem verifyChain_eq_python {last : Certificate} {raised : PyException}
    (failed : verifyChain primitives settings chain last = .error (.python raised)) :
    ∃ before after child issuer, chain = before ++ child :: issuer :: after ∧
      verifyLinks primitives (before ++ [child]) = .ok () ∧
      verifySignedBy primitives child issuer = .error (.python raised) := by
  obtain unlinked | ⟨⟨⟩, -, unanchored⟩ := except_bind_eq_error failed
  · exact verifyLinks_eq_python unlinked
  · split at unanchored
    · cases unanchored
    · split at unanchored <;> cases unanchored

theorem verifyRealTransaction_eq_ok {transaction : VerifiedTransaction}
    (returned : verifyRealTransaction primitives settings jws = .ok transaction) :
    ChainSigned primitives settings jws transaction := by
  obtain ⟨loaded, chain_eq, returned⟩ := except_bind_eq_ok returned
  cases loaded with
  | nil => cases returned
  | cons leaf rest =>
      dsimp only at returned
      split at returned
      · cases returned
      · obtain ⟨⟨⟩, verified, returned⟩ := except_bind_eq_ok returned
        obtain ⟨key, keyed, returned⟩ := except_bind_eq_ok returned
        obtain ⟨payload, decoded, returned⟩ := except_bind_eq_ok returned
        exact ⟨key, payload, ⟨leaf, rest, chain_eq, leadsTo_of_verifyChain verified,
          uncaught_eq_ok keyed⟩, onInvalidToken_eq_ok decoded, returned⟩

theorem loadCertificateChain_ne_nil :
    loadCertificateChain primitives settings jws ≠ .ok [] := by
  intro loaded
  obtain ⟨header, -, loaded⟩ := except_bind_eq_ok loaded
  split at loaded
  next entry entries carried =>
    have mapped := uncaught_eq_ok loaded
    rw [List.mapM_cons] at mapped
    obtain ⟨certificate, -, mapped⟩ := except_bind_eq_ok mapped
    obtain ⟨certificates, -, mapped⟩ := except_bind_eq_ok mapped
    cases mapped
  · cases loaded

theorem verifyRealTransaction_eq_python {raised : PyException}
    (chained : Chained primitives settings jws)
    (failed : verifyRealTransaction primitives settings jws = .error (.python raised)) :
    Unguarded primitives settings jws raised := by
  obtain unloaded | ⟨loaded, chain_eq, failed⟩ := except_bind_eq_error failed
  · exact loadCertificateChain_eq_python chained unloaded
  · cases loaded with
    | nil => exact absurd chain_eq loadCertificateChain_ne_nil
    | cons leaf rest =>
        dsimp only at failed
        split at failed
        · cases failed
        next pinned =>
          obtain unverified | ⟨⟨⟩, verified, failed⟩ := except_bind_eq_error failed
          · obtain ⟨before, after, child, issuer, split_eq, linked, raises⟩ :=
              verifyChain_eq_python unverified
            refine .link chained (split_eq ▸ chain_eq) ?_ linked raises
            rintro unpinned
            simp [unpinned] at pinned
          · have leads := leadsTo_of_verifyChain verified
            obtain unkeyed | ⟨key, keyed, failed⟩ := except_bind_eq_error failed
            · obtain ⟨other, same, raises⟩ := uncaught_eq_error unkeyed
              cases same
              exact .leaf chained chain_eq leads raises
            · have trusted : Trusted primitives settings jws key :=
                ⟨leaf, rest, chain_eq, leads, uncaught_eq_ok keyed⟩
              obtain undecoded | ⟨payload, decoded, failed⟩ := except_bind_eq_error failed
              · exact .token chained trusted (onInvalidToken_eq_python undecoded)
              · exact .payload chained trusted (onInvalidToken_eq_ok decoded) failed

theorem verifyTestTransaction_eq_python {raised : PyException}
    (tested : Tested primitives settings jws)
    (failed : verifyTestTransaction primitives settings jws = .error (.python raised)) :
    Unguarded primitives settings jws raised := by
  obtain undecoded | ⟨payload, decoded, failed⟩ := except_bind_eq_error failed
  · exact .testToken tested (onInvalidToken_eq_python undecoded)
  · exact .testPayload tested (onInvalidToken_eq_ok decoded) failed

end Proofs

variable {Certificate PublicKey HashAlgorithm : Type}

/-- A transaction is returned only where a chain to a pinned root vouches for it, or the secret of
the test mode; and nothing is raised but a `ValidationFailedError` or what an unguarded step, which
the token comes to, raises. -/
theorem verify_fails_closed (primitives : Primitives Certificate PublicKey HashAlgorithm)
    (settings : Settings Certificate) (jws : List Nat) :
    (∀ transaction, verify primitives settings jws = .ok transaction →
      ChainSigned primitives settings jws transaction ∨
        TestSigned primitives settings jws transaction) ∧
    ∀ raised, verify primitives settings jws = .error raised →
      (∃ message, raised = .validationFailed message) ∨
        ∃ exception, raised = .python exception ∧
          Unguarded primitives settings jws exception := by
  constructor
  · intro transaction returned
    rw [verify] at returned
    split at returned
    · cases returned
    next compact =>
      obtain ⟨header, read, returned⟩ := except_bind_eq_ok returned
      obtain ⟨alg, named, returned⟩ := except_bind_eq_ok returned
      split at returned
      next symmetric =>
        split at returned
        next tested =>
          obtain ⟨payload, decoded, returned⟩ := except_bind_eq_ok returned
          rw [symmetric] at named
          exact .inr ⟨⟨tested, not_not.mp compact, header, read, uncaught_eq_ok named⟩, payload,
            onInvalidToken_eq_ok decoded, returned⟩
        · cases returned
      · exact .inl (verifyRealTransaction_eq_ok returned)
  · intro raised failed
    cases raised with
    | validationFailed message => exact .inl ⟨message, rfl⟩
    | python exception =>
        refine .inr ⟨exception, rfl, ?_⟩
        rw [verify] at failed
        split at failed
        · cases failed
        next compact =>
          have compact := not_not.mp compact
          obtain unread | ⟨header, read, failed⟩ := except_bind_eq_error failed
          · have deep := jwsHeader_eq_python unread
            rw [deep] at unread ⊢
            exact .header compact unread
          · obtain unnamed | ⟨alg, named, failed⟩ := except_bind_eq_error failed
            · obtain ⟨culprit, same, raises⟩ := uncaught_eq_error unnamed
              cases same
              exact .algorithm compact read raises
            · have names : Names primitives settings jws alg :=
                ⟨compact, header, read, uncaught_eq_ok named⟩
              split at failed
              next symmetric =>
                split at failed
                next tested =>
                  exact verifyTestTransaction_eq_python ⟨tested, symmetric ▸ names⟩ failed
                · cases failed
              next asymmetric =>
                exact verifyRealTransaction_eq_python ⟨alg, asymmetric, names⟩ failed

namespace Sample

/-- A token under `HS256` with the signature of `storekit-test-secret`. -/
def testToken : List Nat :=
  codes ("eyJhbGciOiJIUzI1NiIsInR5cCI6IkpXVCJ9." ++
    "eyJ0cmFuc2FjdGlvbklkIjoiMjAwMCIsInByb2R1Y3RJZCI6IjEwMF90b2tlbnMiLCJlbnZpcm9ubWVu" ++
    "dCI6IlNhbmRib3gifQ." ++
    "Ln-ztz4rflXs7E3gmQI7LGNtAexqOzVZ_KQOdOfBQ-A")

/-- A library which knows that token, and no certificate. -/
def primitives : Primitives Unit Unit Unit where
  loadDer _ := .error .valueError
  publicBytes _ := []
  signatureHashAlgorithm _ := .error .unsupportedAlgorithm
  publicKey _ := .error .valueError
  keyKind _ := .unsupported
  verify _ _ _ := .error .invalidSignature
  decodeEs256 _ _ := .error .invalidToken
  decodeHs256 jws secret :=
    if jws = testToken ∧ secret = "storekit-test-secret" then
      .ok [(codes "transactionId", .str (codes "2000")),
        (codes "productId", .str (codes "100_tokens")),
        (codes "environment", .str (codes "Sandbox"))]
    else .error .invalidToken
  repr _ := .ok []
  lower text := text.map fun code => if 0x41 ≤ code ∧ code ≤ 0x5a then code + 32 else code

/-- The test mode, switched on. -/
def settings : Settings Unit where
  bundleId := ""
  environment := "sandbox"
  roots := []
  storekitTestMode := true
  storekitTestSecret := "storekit-test-secret"
  recursionRoom := 1000

/-- In the test mode a transaction needs no chain. -/
theorem test_mode_needs_no_chain :
    ¬ ((∀ transaction, verify primitives settings testToken = .ok transaction →
        ChainSigned primitives settings testToken transaction) ∧
      ∀ raised, verify primitives settings testToken = .error raised →
        ∃ message, raised = .validationFailed message) := by
  rintro ⟨signed, -⟩
  have returned : verify primitives settings testToken =
      .ok ⟨codes "2000", codes "2000", codes "100_tokens", none, false, codes "sandbox"⟩ := by
    decide +kernel
  obtain ⟨key, payload, ⟨leaf, rest, loaded, -⟩, -⟩ := signed _ returned
  have unloaded : loadCertificateChain primitives settings testToken =
      .error (.validationFailed "StoreKit JWS missing x5c certificate chain") := by
    decide +kernel
  rw [unloaded] at loaded
  cases loaded

end Sample

end Hermes.Billing.StoreKit
