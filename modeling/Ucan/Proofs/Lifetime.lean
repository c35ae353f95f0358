import Ucan.Token

/-!
The lifetimes of tokens as what they are made for: the times at which a token is valid. One lifetime
is taken to be in another when all its times are, unless it has no start and the other starts with
the first time there is.
-/

set_option autoImplicit false

namespace Ucan.Token

variable {t other : Token} {now : UInt64}

def Active (t : Token) (now : UInt64) : Prop :=
  t.isExpired now = false ∧ t.isTooEarly now = false

theorem isExpired_eq_false_iff :
    t.isExpired now = false ↔ ∀ expiresAt, t.payload.expiresAt = some expiresAt → now < expiresAt := by
  unfold isExpired Payload.isExpired
  cases t.payload.expiresAt <;> simp

theorem isTooEarly_eq_false_iff :
    t.isTooEarly now = false ↔ ∀ notBefore, t.payload.notBefore = some notBefore → notBefore ≤ now := by
  unfold isTooEarly Payload.isTooEarly
  cases t.payload.notBefore <;> simp

theorem lifetimeEndsAfter_iff :
    t.lifetimeEndsAfter other = true ↔ ∀ expiresAt, t.payload.expiresAt = some expiresAt →
      ∃ earlier, other.payload.expiresAt = some earlier ∧ earlier ≤ expiresAt := by
  unfold lifetimeEndsAfter
  cases t.payload.expiresAt <;> cases other.payload.expiresAt <;> simp

theorem lifetimeBeginsBefore_iff :
    t.lifetimeBeginsBefore other = true ↔ ∀ notBefore, t.payload.notBefore = some notBefore →
      ∃ later, other.payload.notBefore = some later ∧ notBefore ≤ later := by
  unfold lifetimeBeginsBefore
  cases t.payload.notBefore <;> cases other.payload.notBefore <;> simp

theorem lifetimeEncompasses_iff :
    t.lifetimeEncompasses other = true ↔
      t.lifetimeBeginsBefore other = true ∧ t.lifetimeEndsAfter other = true := by
  rw [lifetimeEncompasses, Bool.and_eq_true]

theorem Active.of_encompasses (active : other.Active now)
    (wider : t.lifetimeEncompasses other = true) : t.Active now := by
  obtain ⟨fresh, begun⟩ := active
  obtain ⟨beginsBefore, endsAfter⟩ := lifetimeEncompasses_iff.mp wider
  rw [isExpired_eq_false_iff] at fresh
  rw [isTooEarly_eq_false_iff] at begun
  constructor
  · rw [isExpired_eq_false_iff]
    intro expiresAt known
    obtain ⟨earlier, limits, le⟩ := lifetimeEndsAfter_iff.mp endsAfter expiresAt known
    exact UInt64.lt_of_lt_of_le (fresh earlier limits) le
  · rw [isTooEarly_eq_false_iff]
    intro notBefore known
    obtain ⟨later, limits, le⟩ := lifetimeBeginsBefore_iff.mp beginsBefore notBefore known
    exact UInt64.le_trans le (begun later limits)

theorem active_iff :
    t.Active now ↔ (∀ expiresAt, t.payload.expiresAt = some expiresAt → now < expiresAt) ∧
      ∀ notBefore, t.payload.notBefore = some notBefore → notBefore ≤ now := by
  rw [Active, isExpired_eq_false_iff, isTooEarly_eq_false_iff]

/-! ## Lifetimes as sets of times -/

variable {time : UInt64}

theorem Active.later (active : other.Active now) (after : now ≤ time)
    (fresh : ∀ expiresAt, other.payload.expiresAt = some expiresAt → time < expiresAt) :
    other.Active time := by
  have begun := (active_iff.mp active).2
  exact active_iff.mpr ⟨fresh, fun notBefore known => UInt64.le_trans (begun notBefore known) after⟩

theorem Active.earlier (active : other.Active now) (before : time ≤ now)
    (begun : ∀ notBefore, other.payload.notBefore = some notBefore → notBefore ≤ time) :
    other.Active time := by
  have fresh := (active_iff.mp active).1
  exact active_iff.mpr
    ⟨fun expiresAt known => UInt64.lt_of_le_of_lt before (fresh expiresAt known), begun⟩

theorem lifetimeEndsAfter_of_inside (active : other.Active now)
    (inside : ∀ now, other.Active now → t.Active now) : t.lifetimeEndsAfter other = true := by
  rw [lifetimeEndsAfter_iff]
  intro expiresAt known
  apply Classical.byContradiction
  intro outlasts
  have lasting : ∀ earlier, other.payload.expiresAt = some earlier → expiresAt < earlier :=
    fun earlier limits => UInt64.not_le.mp fun le => outlasts ⟨earlier, limits, le⟩
  -- The other token is still valid at a time at which the first one is no longer.
  rcases UInt64.le_total now expiresAt with ahead | passed
  next =>
    have ended := (active_iff.mp (inside expiresAt (active.later ahead lasting))).1
    exact UInt64.lt_irrefl _ (ended expiresAt known)
  next =>
    have ended := (active_iff.mp (inside now active)).1
    exact UInt64.not_le.mpr (ended expiresAt known) passed

theorem lifetimeBeginsBefore_of_inside (active : other.Active now)
    (inside : ∀ now, other.Active now → t.Active now)
    (apart : ¬(t.payload.notBefore = some 0 ∧ other.payload.notBefore = none)) :
    t.lifetimeBeginsBefore other = true := by
  rw [lifetimeBeginsBefore_iff]
  intro notBefore known
  cases begins : other.payload.notBefore with
  | none =>
    -- The other token is valid from the first time on, so this one begins there as well.
    have first := inside 0 (active.earlier UInt64.zero_le (by simp [begins]))
    have start := (active_iff.mp first).2 notBefore known
    obtain rfl : notBefore = 0 := UInt64.le_antisymm start UInt64.zero_le
    exact absurd ⟨known, begins⟩ apart
  | some later =>
    have before := (active_iff.mp active).2 later begins
    have start := inside later (active.earlier before (by simp [begins]))
    exact ⟨later, rfl, (active_iff.mp start).2 notBefore known⟩

/-- The lifetime of a token that is valid at some time lies in that of another exactly when this
other one is valid whenever it is. The exception is a start at the first time there is, which
excludes nothing and yet counts as later than no start. -/
theorem lifetimeEncompasses_iff_active (active : ∃ now, other.Active now) :
    t.lifetimeEncompasses other = true ↔ (∀ now, other.Active now → t.Active now) ∧
      ¬(t.payload.notBefore = some 0 ∧ other.payload.notBefore = none) := by
  obtain ⟨now, active⟩ := active
  constructor
  next =>
    intro wider
    refine ⟨fun _ active => active.of_encompasses wider, fun ⟨first, always⟩ => ?_⟩
    have ⟨_, known, _⟩ := lifetimeBeginsBefore_iff.mp (lifetimeEncompasses_iff.mp wider).1 0 first
    rw [always] at known
    cases known
  next =>
    intro ⟨inside, apart⟩
    exact lifetimeEncompasses_iff.mpr ⟨lifetimeBeginsBefore_of_inside active inside apart,
      lifetimeEndsAfter_of_inside active inside⟩

def sampleLasting (notBefore expiresAt : Option UInt64) : Token :=
  .ofParts ⟨"EdDSA", "JWT", none, .empty⟩
    ⟨some formatVersion, .other "a" "b", .other "c" "d", expiresAt, notBefore, none, none,
      some .empty, none, none, .empty⟩

-- The last time there is differs from no end, as it is not in the lifetime that ends there.
theorem lifetimeEncompasses_iff_active_of_last_time :
    let t := sampleLasting (some 5) (some 0xFFFFFFFFFFFFFFFF)
    let other := sampleLasting (some 5) none
    (∃ now, other.Active now) ∧ t.lifetimeEncompasses other = false ∧
      (t.lifetimeEncompasses other = true ↔ (∀ now, other.Active now → t.Active now) ∧
        ¬(t.payload.notBefore = some 0 ∧ other.payload.notBefore = none)) := by
  intro t other
  have active : ∃ now, other.Active now := ⟨5, rfl, rfl⟩
  exact ⟨active, rfl, lifetimeEncompasses_iff_active active⟩

theorem not_lifetimeEncompasses_iff_active :
    ¬∀ t other : Token, (∃ now, other.Active now) →
      (t.lifetimeEncompasses other = true ↔ ∀ now, other.Active now → t.Active now) := by
  intro claim
  have active : (sampleLasting none none).Active 0 := ⟨rfl, rfl⟩
  have inside : ∀ now, (sampleLasting none none).Active now →
      (sampleLasting (some 0) none).Active now := by
    intro now _
    rw [active_iff]
    exact ⟨nofun, fun notBefore known => Option.some.inj known ▸ UInt64.zero_le⟩
  have encompasses := (claim _ _ ⟨0, active⟩).mpr inside
  cases encompasses

end Ucan.Token
