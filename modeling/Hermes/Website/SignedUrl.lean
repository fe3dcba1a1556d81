import Hermes.Library.Base64
import Hermes.Library.Integer
import Hermes.Library.Uuid

/-!
# Signed preview URLs

A token is the moment it expires and a code over the project, its owner and that moment.  The
verification takes any text at all and either finds both again or refuses.
-/

namespace Hermes.Website

open Encoding

abbrev Id := Fin (2 ^ 128)

/-- `str` of a UUID. -/
def Id.text (id : Id) : List Char := Uuid.toText id.val

/-- HMAC-SHA256, of which no collisions are known. -/
structure Hmac where
  digest : List UInt8 → List UInt8 → List UInt8
  collisionFree : ∀ secret, Function.Injective (digest secret)

structure Signer where
  hmac : Hmac
  /-- `PREVIEW_URL_SECRET`; it is missing when it is empty. -/
  secret : String
  /-- `PREVIEW_URL_TTL_SECONDS`. -/
  ttl : Int := 900

inductive SigningError
  /-- `PreviewSecretMissingError`. -/
  | secretMissing
  /-- The `ValueError` of an integer with too many digits. -/
  | value
  deriving DecidableEq, Repr

structure SignedPreview where
  token : List Nat
  expiresAt : Int
  deriving DecidableEq, Repr

/-- `_b64url_encode`. -/
def b64urlEncode (data : List UInt8) : List Nat :=
  (Base64.urlsafeEncode data).rdropWhile (· == Base64.pad)

/-- `_b64url_decode`; none is a `ValueError`. -/
def b64urlDecode (value : List Nat) : Option (List UInt8) :=
  Base64.urlsafeDecode (value ++ Base64.missing value)

/-- `bytes.decode("ascii")`. -/
def decodeAscii (bytes : List UInt8) : Option (List Nat) :=
  if bytes.all (·.toNat < 0x80) then some (bytes.map UInt8.toNat) else none

namespace Signer

variable (signer : Signer)

/-- `_canonical`, once the moment is written. -/
def canonical (project owner : Id) (exp : List Nat) : String :=
  String.ofList (project.text ++ '|' :: (owner.text ++ '|' :: exp.map Char.ofNat))

/-- `_sign`. -/
def sign (project owner : Id) (exp : Int) : Except SigningError (List UInt8) :=
  if signer.secret = "" then .error .secretMissing
  else
    match Integer.toCodes exp with
    | none => .error .value
    | some exp =>
        .ok (signer.hmac.digest (encode signer.secret) (encode (canonical project owner exp)))

/-- `build_token`. -/
def buildToken (project owner : Id) (issued : Int) : Except SigningError SignedPreview :=
  let exp := issued + signer.ttl
  (signer.sign project owner exp).map fun mac =>
    ⟨b64urlEncode ((Integer.digits exp).map UInt8.ofNat) ++ '.'.toNat :: b64urlEncode mac, exp⟩

/-- The moment and the code a token has; none where it is malformed. -/
def readToken (token : List Nat) : Option (Int × List UInt8) :=
  match token.splitOn '.'.toNat with
  | [expPart, macPart] => do
      let exp ← (b64urlDecode expPart).bind decodeAscii >>= Integer.ofCodes
      let presented ← b64urlDecode macPart
      return (exp, presented)
  | _ => none

/-- `verify_token`. -/
def verifyToken (project owner : Id) (token : List Nat) (current : Int) :
    Except SigningError Bool :=
  match readToken token with
  | none => .ok false
  | some (exp, presented) =>
      (signer.sign project owner exp).map fun expected => presented == expected && current ≤ exp

end Signer

section Tokens

variable {signer : Signer} {project owner : Id} {issued : Int} {signed : SignedPreview}

def isTokenCode (code : Nat) : Bool :=
  decide (code < 0x80) &&
    ((Char.ofNat code).isAlphanum || [Base64.pad, '-'.toNat, '_'.toNat, '.'.toNat].contains code)

theorem b64urlDecode_b64urlEncode (data : List UInt8) :
    b64urlDecode (b64urlEncode data) = some data := by
  rw [b64urlDecode, b64urlEncode, Base64.restore_padding, Base64.urlsafeDecode_urlsafeEncode]

theorem mem_b64urlEncode {data : List UInt8} {code : Nat} (listed : code ∈ b64urlEncode data) :
    code ≠ '.'.toNat ∧ isTokenCode code = true := by
  have within : code ∈ Base64.urlsafeEncode data := (List.rdropWhile_prefix _ _).subset listed
  rw [Base64.urlsafeEncode, List.mem_map] at within
  obtain ⟨written, encoded, rfl⟩ := within
  rcases Base64.mem_encode encoded with rfl | ⟨value, small, rfl⟩
  · exact ⟨by decide, rfl⟩
  · have checked : ∀ value < 64, Base64.toUrl (Base64.letter value) ≠ '.'.toNat ∧
        isTokenCode (Base64.toUrl (Base64.letter value)) = true := by decide
    exact checked value small

theorem buildToken_eq_ok (built : signer.buildToken project owner issued = .ok signed) :
    signer.secret ≠ "" ∧ (issued + signer.ttl).natAbs < 10 ^ Text.maxStrDigits ∧
      signed.expiresAt = issued + signer.ttl ∧
      signed.token = b64urlEncode ((Integer.digits (issued + signer.ttl)).map UInt8.ofNat) ++
        '.'.toNat :: b64urlEncode (signer.hmac.digest (encode signer.secret)
          (encode (Signer.canonical project owner (Integer.digits (issued + signer.ttl))))) := by
  simp only [Signer.buildToken, Signer.sign] at built
  split at built
  · cases built
  next configured =>
  split at built
  · cases built
  next exp written =>
  rw [Integer.toCodes] at written
  split at written
  · cases written
    cases built
    exact ⟨configured, ‹_›, rfl, rfl⟩
  · cases written

theorem exists_buildToken (configured : signer.secret ≠ "")
    (small : (issued + signer.ttl).natAbs < 10 ^ Text.maxStrDigits) :
    ∃ signed, signer.buildToken project owner issued = .ok signed ∧
      signed.expiresAt = issued + signer.ttl := by
  rw [Signer.buildToken, Signer.sign, if_neg configured, Integer.toCodes, if_pos small]
  exact ⟨_, rfl, rfl⟩

theorem token_codes (built : signer.buildToken project owner issued = .ok signed) {code : Nat}
    (listed : code ∈ signed.token) : isTokenCode code = true := by
  obtain ⟨-, -, -, same⟩ := buildToken_eq_ok built
  rw [same, List.mem_append, List.mem_cons] at listed
  rcases listed with first | rfl | second
  · exact (mem_b64urlEncode first).2
  · rfl
  · exact (mem_b64urlEncode second).2

theorem readToken_buildToken (built : signer.buildToken project owner issued = .ok signed) :
    Signer.readToken signed.token = some (issued + signer.ttl,
      signer.hmac.digest (encode signer.secret)
        (encode (Signer.canonical project owner (Integer.digits (issued + signer.ttl))))) := by
  obtain ⟨-, small, -, same⟩ := buildToken_eq_ok built
  have ascii : ∀ code ∈ Integer.digits (issued + signer.ttl), code < 0x80 :=
    fun _ => Integer.digits_ascii
  have read : decodeAscii ((Integer.digits (issued + signer.ttl)).map UInt8.ofNat) =
      some (Integer.digits (issued + signer.ttl)) := by
    rw [decodeAscii, if_pos, map_toNat_ofNat ascii]
    simp only [List.all_map, List.all_eq_true, Function.comp_apply, decide_eq_true_eq]
    intro code listed
    rw [toNat_ofNat_ascii (ascii code listed)]
    exact ascii code listed
  have parts (data : List UInt8) : '.'.toNat ∉ b64urlEncode data :=
    fun listed => (mem_b64urlEncode listed).1 rfl
  rw [same, Signer.readToken, List.splitOn_append_cons_self_of_not_mem (parts _),
    List.splitOn_eq_singleton (parts _)]
  simp only [b64urlDecode_b64urlEncode, Option.bind_some, read, Option.bind_eq_bind,
    Integer.ofCodes_digits small]
  rfl

theorem Id.text_inj {id other : Id} (same : id.text = other.text) : id = other := by
  have read := Uuid.ofText_toText id.isLt (Uuid.lower_toText id.val)
  have read_other := Uuid.ofText_toText other.isLt (Uuid.lower_toText other.val)
  rw [show Uuid.toText id.val = Uuid.toText other.val from same, read_other] at read
  exact Fin.ext (Option.some.inj read).symm

theorem mem_idText {id : Id} {char : Char} (listed : char ∈ id.text) :
    char.isAlphanum = true ∨ char = '-' := by
  rcases Uuid.mem_toText listed with rfl | ⟨value, small, rfl⟩
  · exact .inr rfl
  · have checked : ∀ value < 16, value.digitChar.isAlphanum = true := by decide
    exact .inl (checked value small)

theorem encode_injective : Function.Injective encode := by
  intro text other same
  rw [encode, encode] at same
  exact String.toByteArray_inj.mp (ByteArray.ext (Array.toList_inj.mp same))

/-- What is signed tells the project and the owner. -/
theorem canonical_inj {other_project other_owner : Id} {exp other : List Nat}
    (same : Signer.canonical project owner exp = Signer.canonical other_project other_owner other) :
    project = other_project ∧ owner = other_owner := by
  have texts := String.ofList_injective same
  obtain ⟨projects, rest⟩ := List.append_inj texts (by
    simp [Id.text, Uuid.toText])
  obtain ⟨owners, -⟩ := List.append_inj (List.cons.inj rest).2 (by simp [Id.text, Uuid.toText])
  exact ⟨Id.text_inj projects, Id.text_inj owners⟩

/-- A token is good for its project and owner until it expires, and for nothing else. -/
theorem verifyToken_buildToken (built : signer.buildToken project owner issued = .ok signed)
    (other_project other_owner : Id) (current : Int) :
    signer.verifyToken other_project other_owner signed.token current =
      .ok (other_project = project ∧ other_owner = owner ∧ current ≤ issued + signer.ttl) := by
  obtain ⟨configured, small, -, -⟩ := buildToken_eq_ok built
  have signs (first second : Id) : signer.sign first second (issued + signer.ttl) =
      .ok (signer.hmac.digest (encode signer.secret)
        (encode (Signer.canonical first second (Integer.digits (issued + signer.ttl))))) := by
    rw [Signer.sign, if_neg configured, Integer.toCodes, if_pos small]
  rw [Signer.verifyToken, readToken_buildToken built]
  simp only [signs, Except.map]
  congr 1
  rw [Bool.eq_iff_iff]
  simp only [Bool.and_eq_true, beq_iff_eq, decide_eq_true_eq]
  constructor
  · rintro ⟨codes, fresh⟩
    obtain ⟨rfl, rfl⟩ := canonical_inj (encode_injective (signer.hmac.collisionFree _ codes))
    exact ⟨rfl, rfl, fresh⟩
  · rintro ⟨rfl, rfl, fresh⟩
    exact ⟨rfl, fresh⟩

/-- The verification answers whatever it is given, as long as there is a secret. -/
theorem verifyToken_total (configured : signer.secret ≠ "") (project owner : Id)
    (token : List Nat) (current : Int) :
    ∃ valid, signer.verifyToken project owner token current = .ok valid := by
  rw [Signer.verifyToken]
  split
  case h_1 => exact ⟨false, rfl⟩
  case h_2 exp presented read =>
      have written : Integer.toCodes exp = some (Integer.digits exp) := by
        rw [Signer.readToken] at read
        split at read
        case h_2 => cases read
        obtain ⟨value, parsed, rest⟩ := Option.bind_eq_some_iff.mp read
        obtain ⟨code, -, same⟩ := Option.bind_eq_some_iff.mp rest
        cases same
        obtain ⟨text, -, integer⟩ := Option.bind_eq_some_iff.mp parsed
        exact Integer.toCodes_of_ofText integer
      rw [Signer.sign, if_neg configured, written]
      exact ⟨_, rfl⟩

end Tokens

end Hermes.Website
