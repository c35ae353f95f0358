import Ucan.Proofs.Builder

/-!
Builders, told from their settings. Of a field the last setting counts, lists have all that was set,
and only settings of the same field have to stay in their order. So the settings alone say whether a
token is built, and which one.
-/

set_option autoImplicit false

namespace Ucan.Builder

-- The algorithm has no field of its own: it is set together with the issuer.
inductive Field where
  | issuer
  | audience
  | lifetime
  | expiration
  | notBefore
  | nonce
  | facts
  | capabilities
  | proofs
  deriving DecidableEq

namespace Setting

def field : Setting → Field
  | issuer .. => .issuer
  | audience _ => .audience
  | lifetime _ => .lifetime
  | expiration _ => .expiration
  | notBefore _ => .notBefore
  | nonce _ => .nonce
  | facts _ => .facts
  | capabilities _ => .capabilities
  | proof _ => .proofs

def claims : Setting → List Capability
  | capabilities list => list
  | _ => []

/-- The reference that is added, if it is one. -/
def proof? : Setting → Option String
  | proof reference => some reference
  | _ => none

end Setting

/-- All that is claimed, in the order of the claims. -/
def claimed (settings : List Setting) : List Capability := settings.flatMap Setting.claims

/-- The setting of the field that no later one replaces. -/
def last? (settings : List Setting) (field : Field) : Option Setting :=
  (settings.filter (·.field = field)).getLast?

def Sets (settings : List Setting) (field : Field) : Prop := ∃ s ∈ settings, s.field = field

instance (settings : List Setting) (field : Field) : Decidable (Sets settings field) :=
  inferInstanceAs (Decidable (∃ s ∈ settings, s.field = field))

variable {settings : List Setting} {field : Field} {s s' : Setting} {b : Builder} {now : UInt64}
  {t : Token}

theorem last?_concat :
    last? (settings ++ [s]) field = if s.field = field then some s else last? settings field := by
  by_cases here : s.field = field <;> simp [last?, here]

theorem sets_iff_isSome : Sets settings field ↔ (last? settings field).isSome := by
  rw [Option.isSome_iff_ne_none]
  simp [last?, Sets]

/-- What the builder holds is what the settings say. -/
structure Reflects (b : Builder) (settings : List Setting) : Prop where
  issuer : last? settings .issuer = b.issuer.bind fun did => b.algorithm.map (.issuer did)
  -- Both are there or neither is.
  algorithm : b.algorithm.isSome = b.issuer.isSome
  audience : last? settings .audience = b.audience.map .audience
  lifetime : last? settings .lifetime = b.lifetime.map .lifetime
  expiration : last? settings .expiration = b.expiration.map .expiration
  notBefore : last? settings .notBefore = b.notBefore.map .notBefore
  nonce : last? settings .nonce = b.nonce.map .nonce
  facts : last? settings .facts = b.facts.map .facts
  capabilities : b.capabilities = claimed settings
  proofs : b.proofs = settings.filterMap Setting.proof?

theorem reflects_set (reflects : b.Reflects settings) (s : Setting) :
    (b.set s).Reflects (settings ++ [s]) := by
  obtain ⟨issuer, algorithm, audience, lifetime, expiration, notBefore, nonce, facts, capabilities,
    proofs⟩ := reflects
  cases s <;> constructor <;>
    simp [last?_concat, set, Setting.field, claimed, Setting.claims, Setting.proof?, *]

theorem reflects_ofSettings (settings : List Setting) : (ofSettings settings).Reflects settings := by
  induction settings using List.reverseRecOn with
  | nil => constructor <;> rfl
  | append_singleton before s ih =>
    have last : ofSettings (before ++ [s]) = (ofSettings before).set s := by
      simp [ofSettings, setAll]
    rw [last]
    exact reflects_set ih s

theorem proofs_ofSettings (settings : List Setting) :
    (ofSettings settings).proofs = settings.filterMap Setting.proof? :=
  (reflects_ofSettings settings).proofs

theorem capabilities_ofSettings (settings : List Setting) :
    (ofSettings settings).capabilities = claimed settings :=
  (reflects_ofSettings settings).capabilities

/-! ## What is built -/

/-- When a token expires that was built now: at the time that was set last, which is no earlier than
the first one, or so many seconds later, but no later than the last time there is. -/
structure Expires (settings : List Setting) (now : UInt64) (expiresAt : Option UInt64) : Prop where
  never : expiresAt = none ↔ ¬Sets settings .lifetime ∧ ¬Sets settings .expiration
  expiration : ∀ time, last? settings .expiration = some (.expiration time) → expiresAt = some time
  instant : ∀ time, last? settings .expiration = some (.expiresAt time) →
    ∃ e, expiresAt = some e ∧ (e.toNat : Int) = max 0 time.toInt
  lifetime : ∀ seconds, last? settings .lifetime = some (.lifetime seconds) →
    ∃ e, expiresAt = some e ∧ e.toNat = min (now.toNat + seconds.toNat) (UInt64.size - 1)

theorem expiresAt_eq_ok_iff {expiresAt : Option UInt64} : b.expiresAt now = .ok expiresAt ↔
    (b.expiration = none ∨ b.lifetime = none) ∧
      expiresAt = b.expiration.or (b.lifetime.map (saturatingAdd now)) := by
  unfold Builder.expiresAt
  split <;> simp [*, eq_comm]

namespace Reflects

variable (reflects : b.Reflects settings)
include reflects

theorem expires {expiresAt : Option UInt64} (timed : b.expiresAt now = .ok expiresAt) :
    Expires settings now expiresAt := by
  obtain ⟨single, rfl⟩ := expiresAt_eq_ok_iff.mp timed
  have ends (time : UInt64) (last : last? settings .expiration = some (.expiration time)) :
      b.expiration = some time :=
    Option.map_injective (fun _ _ => Setting.expiration.inj) (reflects.expiration.symm.trans last)
  have lasts (seconds : UInt64) (last : last? settings .lifetime = some (.lifetime seconds)) :
      b.lifetime = some seconds :=
    Option.map_injective (fun _ _ => Setting.lifetime.inj) (reflects.lifetime.symm.trans last)
  constructor
  · rw [sets_iff_isSome, sets_iff_isSome, reflects.lifetime, reflects.expiration]
    simp [and_comm]
  · intro time last
    rw [ends time last, Option.some_or]
  · intro time last
    rw [ends _ last]
    exact ⟨_, Option.some_or, toNat_epochSeconds time⟩
  · intro seconds last
    have lasts := lasts seconds last
    have endless : b.expiration = none := by simpa [lasts] using single
    rw [lasts, endless]
    exact ⟨_, rfl, toNat_saturatingAdd now seconds⟩

end Reflects

/-! ## The order of settings -/

namespace Sample

def signer : Signer := ⟨.other "a" "b", .es256, fun _ => .error (.signingFailed "")⟩

def first : List Setting :=
  [.issuer (.other "x" "y") .edDsa, .audience (.other "x" "y"), .issuedBy signer, .nonce "m",
    .proof "p"]

def lasting : List Setting := first ++ [.lifetime 3, .randomNonce [105, 183], .lifetime 10]

end Sample

end Ucan.Builder
