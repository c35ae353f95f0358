import Ucan.BuildOptions
import Ucan.Proofs.Builder

/-!
What is built from contents that were read is decoded as it was built: what could be read there can
be read again where it comes to stand.
-/

set_option autoImplicit false

namespace Ucan

namespace Json

variable {α β : Type} {p : α → Prop} {q : β → Prop} {read : Reader α}

theorem Yields.bind {next : α → Reader β} (yields : Yields read p)
    (later : ∀ a, p a → Yields (next a) q) : Yields (read.bind next) q := by
  intro s b r taken
  unfold Reader.bind at taken
  split at taken
  · cases taken
  next a t first =>
    obtain ⟨_, second, same⟩ := map_eq_ok.mp taken
    cases same
    exact later a (yields s a t first) _ _ _ second

theorem Yields.element (yields : Yields read p) (wanted : String) (count : Nat) :
    Yields (Reader.element wanted count read) p := by
  intro s a r taken
  unfold Reader.element at taken
  repeat' split at taken
  all_goals try cases taken
  · exact yields _ _ _ taken
  · obtain ⟨_, inner, same⟩ := map_eq_ok.mp taken
    cases same
    exact yields _ _ _ inner

theorem Yields.arrayOr {array : Reader α} (inside : Yields array p) (otherwise : Yields read p) :
    Yields (Reader.arrayOr (some array) read) p := by
  intro s a r taken
  unfold Reader.arrayOr at taken
  split at taken
  · cases taken
  split at taken
  · obtain ⟨_, inner, same⟩ := map_eq_ok.mp taken
    cases same
    exact inside _ _ _ inner
  · exact otherwise _ _ _ taken

end Json

namespace BuildOptions

open Json

/-- What can be read back from a payload that it becomes part of. -/
structure Sound (depth : Nat) (o : BuildOptions) : Prop where
  facts : ∀ j ∈ o.facts, Fits depth j ∧ j ≠ .null
  capabilities : ∀ map ∈ o.capabilities, Fits depth map.toJson

variable {depth : Nat}

theorem yields_member (d : Draft) (name : String) (read : Reader Draft)
    (sound : d.finish.Sound depth) (found : Draft.member depth d name = .ok read) :
    Yields read fun d => d.finish.Sound depth := by
  unfold Draft.member at found
  by_cases lifetime : name = "lifetimeInSeconds"
  · rw [if_pos lifetime] at found
    exact ((yields_true _).map fun _ _ => ⟨sound.facts, sound.capabilities⟩).once found
  rw [if_neg lifetime] at found
  by_cases expiration : name = "expiration"
  · rw [if_pos expiration] at found
    exact ((yields_true _).map fun _ _ => ⟨sound.facts, sound.capabilities⟩).once found
  rw [if_neg expiration] at found
  by_cases notBefore : name = "notBefore"
  · rw [if_pos notBefore] at found
    exact ((yields_true _).map fun _ _ => ⟨sound.facts, sound.capabilities⟩).once found
  rw [if_neg notBefore] at found
  by_cases facts : name = "facts"
  · rw [if_pos facts] at found
    exact ((yields_option_value depth).map fun _ known =>
      ⟨known, sound.capabilities⟩).once found
  rw [if_neg facts] at found
  by_cases proofs : name = "proofs"
  · rw [if_pos proofs] at found
    exact ((yields_true _).map fun _ _ => ⟨sound.facts, sound.capabilities⟩).once found
  rw [if_neg proofs] at found
  by_cases nonce : name = "nonce"
  · rw [if_pos nonce] at found
    exact ((yields_true _).map fun _ _ => ⟨sound.facts, sound.capabilities⟩).once found
  rw [if_neg nonce] at found
  by_cases capabilities : name = "capabilities"
  · rw [if_pos capabilities] at found
    exact ((CapabilityMap.confined depth).option.map fun _ fits =>
      ⟨sound.facts, fits⟩).once found
  rw [if_neg capabilities] at found
  cases found
  exact (yields_true _).map fun _ _ => sound

theorem yields_elements (depth : Nat) : Yields (elements depth) (Sound depth) := by
  refine ((yields_true _).element _ _).bind fun _ _ => ?_
  refine ((yields_true _).element _ _).bind fun _ _ => ?_
  refine ((yields_true _).element _ _).bind fun _ _ => ?_
  refine ((yields_option_value depth).element _ _).bind fun facts known => ?_
  refine ((yields_true _).element _ _).bind fun _ _ => ?_
  refine ((yields_true _).element _ _).bind fun _ _ => ?_
  refine ((CapabilityMap.confined depth).option.element _ _).bind fun capabilities fits => ?_
  exact (yields_true _).map fun _ _ => ⟨known, fits⟩

theorem sound_of_parse {s : Bytes} {o : BuildOptions} (parsed : parse s = .ok o) :
    o.Sound 126 := by
  have yields : Yields reader (Sound 126) :=
    (yields_elements 126).arrayOr
      ((yields_object yields_member ⟨by simp [Draft.finish], by simp [Draft.finish]⟩).map
        fun _ sound => sound)
  exact yields.parse parsed

/-- All numbers in it are exact integers. -/
structure Integral (o : BuildOptions) : Prop where
  facts : ∀ j ∈ o.facts, j.Integral
  capabilities : ∀ map ∈ o.capabilities, map.toJson.Integral

variable {o : BuildOptions}

theorem forall_mem_toList_map {α β : Type} {P : β → Prop} {f : α → β} {a : Option α} :
    (∀ b ∈ (a.map f).toList, P b) ↔ ∀ x ∈ a, P (f x) := by
  cases a <;> simp

theorem proper_settings (sound : o.Sound depth) (integral : o.Integral) :
    ∀ s ∈ o.settings, s.Proper := by
  simp only [settings, List.forall_mem_append, List.forall_mem_map, forall_mem_toList_map,
    Builder.Setting.Proper, implies_true, true_and, and_true]
  constructor
  · exact fun j given => ⟨(sound.facts j given).1.ordered, integral.facts j given⟩
  · intro map given
    have ordered := CapabilityMap.ordered_toJson.mp (sound.capabilities map given).ordered
    have integral := CapabilityMap.integral_toJson.mp (integral.capabilities map given)
    intro c claimed caveat member
    exact ⟨CapabilityMap.forall_mem_toList.mpr ordered c claimed caveat member,
      CapabilityMap.forall_mem_toList.mpr integral c claimed caveat member⟩

theorem fits_of_mem_toList (sound : o.Sound (depth + 3)) :
    ∀ c ∈ (o.capabilities.map CapabilityMap.toList).getD [], ∀ caveat ∈ c.caveats,
      Fits depth (ofMembers caveat) := by
  cases given : o.capabilities with
  | none => exact nofun
  | some map =>
    exact CapabilityMap.forall_mem_toList.mpr
      (CapabilityMap.fits_toJson.mp (sound.capabilities map given))

/-- Each value is set once, and nothing is set that is not there. -/
theorem setAll_settings (b : Builder) (o : BuildOptions) :
    b.setAll o.settings = { b with
      lifetime := o.lifetime <|> b.lifetime
      expiration := o.expiration <|> b.expiration
      notBefore := o.notBefore <|> b.notBefore
      facts := o.facts <|> b.facts
      nonce := o.nonce <|> b.nonce
      proofs := b.proofs ++ o.proofs.getD []
      capabilities := b.capabilities ++ (o.capabilities.map CapabilityMap.toList).getD [] } := by
  have proofs : ∀ (b : Builder) (references : List String),
      (references.map Builder.Setting.proof).foldl Builder.set b =
        { b with proofs := b.proofs ++ references } := by
    intro b references
    induction references generalizing b with
    | nil => simp
    | cons reference rest ih => simp [ih, Builder.set]
  obtain ⟨lifetime, expiration, notBefore, facts, references, nonce, capabilities⟩ := o
  simp only [Builder.setAll, settings, List.foldl_append, proofs]
  cases lifetime <;> cases expiration <;> cases notBefore <;> cases facts <;> cases nonce <;>
    cases capabilities <;> simp [Builder.set]

variable {now : UInt64} {issuer audience : Did} {algorithm : SignatureAlgorithm} {t draft : Token}

theorem ofSettings_settings (issuer audience : Did) (algorithm : SignatureAlgorithm)
    (o : BuildOptions) :
    Builder.ofSettings (.issuer issuer algorithm :: .audience audience :: o.settings) =
      { issuer := some issuer
        algorithm := some algorithm
        audience := some audience
        lifetime := o.lifetime
        expiration := o.expiration
        notBefore := o.notBefore
        nonce := o.nonce
        facts := o.facts
        capabilities := (o.capabilities.map CapabilityMap.toList).getD []
        proofs := o.proofs.getD [] } := by
  have made : Builder.ofSettings (.issuer issuer algorithm :: .audience audience :: o.settings) =
      Builder.setAll
        { issuer := some issuer, algorithm := some algorithm, audience := some audience }
        o.settings := rfl
  rw [made, setAll_settings]
  simp

/-- Signed or not, what was built is decoded as it is. -/
theorem decode_of_build {limit : Nat} (sound : o.Sound 126) (integral : o.Integral)
    (issued : issuer.Obtained) (addressed : audience.Obtained)
    (built : (Builder.ofSettings (.issuer issuer algorithm :: .audience audience ::
      o.settings)).build now = .ok draft)
    (header : t.header = draft.header) (payload : t.payload = draft.payload)
    (canonical : t.Canonical) (size : t.encode.utf8ByteSize ≤ limit) :
    Token.decodeWithin limit t.encode = .ok t := by
  have proper : ∀ s ∈ Builder.Setting.issuer issuer algorithm :: .audience audience :: o.settings,
      s.Proper :=
    List.forall_mem_cons.mpr ⟨issued, List.forall_mem_cons.mpr
      ⟨addressed, proper_settings sound integral⟩⟩
  have made := ofSettings_settings issuer audience algorithm o
  have facts := congrArg Builder.facts made
  have capabilities := congrArg Builder.capabilities made
  refine (Builder.decode_iff_of_sound (Builder.sound_ofSettings proper) built header payload
    canonical size).mpr ?_
  obtain ⟨_, _, _, _, -, -, -, -, rfl⟩ := Builder.build_eq_ok_iff.mp built
  rw [payload]
  constructor
  · intro null
    exact (sound.facts .null (facts.symm.trans null)).2 rfl
  -- Facts and the map were read at most 126 deep, and in the payload they stand one level in.
  · refine Fits.shallow (show Fits (123 + 4) _ from Builder.fits_payload ?_ ?_)
    · rw [facts]
      exact fun j given => (sound.facts j given).1
    · rw [capabilities]
      exact fits_of_mem_toList sound

end BuildOptions

end Ucan
