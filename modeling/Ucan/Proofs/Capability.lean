import Ucan.Capability
import Ucan.Proofs.Json.Reads
import Ucan.Proofs.Json.Yields

/-!
Capabilities in both layouts are read as they are written, and what is read can be written again.
-/

set_option autoImplicit false

namespace Ucan

open Json

namespace CapabilityMap

theorem faithful (map : CapabilityMap) : Faithful reader toJson map :=
  faithful_dict fun _ _ => faithful_dict fun _ _ => faithful_list fun _ _ => faithful_memberDict _

theorem confined : Confined reader toJson :=
  confined_dict (confined_dict (confined_list confined_memberDict))

/-! ## All caveats of a map -/

def Forall (P : Members → Prop) (map : CapabilityMap) : Prop :=
  ∀ e ∈ map.entries, ∀ f ∈ e.2.entries, ∀ caveat ∈ f.2, P caveat

variable {P : Members → Prop} {map : CapabilityMap}

theorem forall_empty : Forall P .empty := nofun

theorem Forall.claim {c : Capability} (all : map.Forall P) (new : ∀ caveat ∈ c.caveats, P caveat) :
    (map.claim c).Forall P := by
  rintro ⟨resource, abilities⟩ inside ⟨ability, caveats⟩ inner caveat member
  rw [← Dict.find?_eq_some_iff, CapabilityMap.claim, Dict.find?_alter] at inside
  split at inside
  · cases inside
    rw [← Dict.find?_eq_some_iff, Dict.find?_alter] at inner
    -- What the resource had before, if anything.
    have old : ∀ f ∈ ((Dict.find? map c.resource).getD .empty).entries, ∀ caveat ∈ f.2,
        P caveat := by
      cases held : Dict.find? map c.resource with
      | none => exact nofun
      | some abilities => exact all _ (Dict.find?_eq_some_iff.mp held)
    split at inner
    · cases inner
      rcases List.mem_append.mp member with before | added
      · cases held : Dict.find? ((Dict.find? map c.resource).getD .empty) c.ability with
        | none => rw [held] at before; cases before
        | some caveats =>
          rw [held] at before
          exact old _ (Dict.find?_eq_some_iff.mp held) caveat before
      · exact new caveat added
    · exact old _ (Dict.find?_eq_some_iff.mp inner) caveat member
  · exact all _ (Dict.find?_eq_some_iff.mp inside) _ inner caveat member

theorem forall_ofList {capabilities : List Capability}
    (all : ∀ c ∈ capabilities, ∀ caveat ∈ c.caveats, P caveat) : (ofList capabilities).Forall P := by
  have from_map : ∀ map : CapabilityMap, map.Forall P →
      (capabilities.foldl CapabilityMap.claim map).Forall P := by
    induction capabilities with
    | nil => exact fun map holds => holds
    | cons c rest ih =>
      rw [List.forall_mem_cons] at all
      exact fun map holds => ih all.2 _ (holds.claim all.1)
  exact from_map _ forall_empty

theorem forall_mem_toList :
    (∀ c ∈ map.toList, ∀ caveat ∈ c.caveats, P caveat) ↔ map.Forall P := by
  constructor
  · intro all e inside f inner caveat member
    exact all ⟨e.1, f.1, f.2⟩
      (List.mem_flatMap.mpr ⟨e, inside, List.mem_map.mpr ⟨f, inner, rfl⟩⟩) caveat member
  · intro all c claimed caveat member
    obtain ⟨e, inside, claimed⟩ := List.mem_flatMap.mp claimed
    obtain ⟨f, inner, rfl⟩ := List.mem_map.mp claimed
    exact all e inside f inner caveat member

theorem toJson_eq (map : CapabilityMap) :
    map.toJson = .object (map.entries.map fun e =>
      (e.1, .object (e.2.entries.map fun f => (f.1, .array (f.2.map Json.ofMembers))))) := rfl

theorem ordered_toJson :
    map.toJson.Ordered ↔ map.Forall fun caveat => (Json.ofMembers caveat).Ordered := by
  simp only [toJson_eq, ordered_object, ordered_array, List.forall_mem_map, Dict.sorted_map,
    true_and, Forall]

theorem integral_toJson :
    map.toJson.Integral ↔ map.Forall fun caveat => (Json.ofMembers caveat).Integral := by
  simp only [toJson_eq, integral_object, integral_array, List.forall_mem_map, Forall]

theorem fits_toJson {depth : Nat} :
    Fits (depth + 3) map.toJson ↔ map.Forall fun caveat => Fits depth (Json.ofMembers caveat) := by
  simp only [toJson_eq, fits_object, fits_array, List.forall_mem_map, Dict.sorted_map, true_and,
    Forall]

end CapabilityMap

namespace Attenuation

def fieldNames : List String := ["with", "can"]

/-- No field stands among the other members. -/
def Readable (a : Attenuation) : Prop := ∀ e ∈ a.extra.entries, e.1 ∉ fieldNames

/-- What is made of the members of those names. -/
def draft (a : Attenuation) (names : List String) : Draft where
  resource := if "with" ∈ names then some a.resource else none
  ability := if "can" ∈ names then some a.ability else none
  extra := a.extra.restrict names

variable {a : Attenuation}

theorem mem_toMembers (readable : a.Readable) {e : String × Json} :
    e ∈ a.toMembers.entries ↔
      e = ("with", .string a.resource) ∨ e = ("can", .string a.ability) ∨ e ∈ a.extra.entries := by
  let own := [("with", Json.string a.resource), ("can", .string a.ability)]
  have distinct : (own.map (·.1)).Nodup := (by decide : fieldNames.Nodup)
  have split : e ∈ a.toMembers.entries ↔ e ∈ own ∨ e ∈ a.extra.entries :=
    Dict.mem_insertAll_ofList distinct readable
  rw [split]
  simp [own, or_assoc]

theorem reads_member {depth : Nat} (readable : a.Readable) (names : List String)
    {m : String × Json} (inside : m ∈ a.toMembers.entries) (fresh : m.1 ∉ names)
    (fits : Fits depth m.2) (integral : m.2.Integral) :
    ∃ read, Draft.member depth (a.draft names) m.1 = .ok read ∧
      Reads read m.2 (a.draft (m.1 :: names)) := by
  have absent {name : String} : name ∈ fieldNames → a.extra.find? name = none :=
    Dict.find?_of_apart readable
  rcases (mem_toMembers readable).mp inside with rfl | rfl | other
  · refine exists_reads_once rfl (if_neg fresh) (reads_string _) ?_
    simp [draft, Dict.restrict_of_absent (absent (by decide : "with" ∈ fieldNames))]
  · refine exists_reads_once rfl (if_neg fresh) (reads_string _) ?_
    simp [draft, Dict.restrict_of_absent (absent (by decide : "can" ∈ fieldNames))]
  · have unknown := readable m other
    simp only [fieldNames, List.mem_cons, not_or] at unknown
    refine exists_reads (by rw [Draft.member, if_neg unknown.1, if_neg unknown.2.1])
      (reads_value fits integral) ?_
    simp [draft, Ne.symm unknown.1, Ne.symm unknown.2.1,
      Dict.insert_restrict (Dict.find?_eq_some_iff.mpr other)]

theorem faithful (readable : a.Readable) :
    Faithful reader (fun a => Json.ofMembers a.toMembers) a := by
  intro depth fits integral
  change (object a.toMembers.entries).Integral at integral
  rw [integral_object] at integral
  cases depth with
  | zero => exact absurd fits not_fits_object
  | succ depth =>
    have inside := (fits_object.mp fits).2
    refine reads_record a.draft (by simp [draft, Dict.restrict_nil]) ?_ ?_
    · exact fun names m member fresh =>
        reads_member readable names member fresh (inside m member) (integral m member)
    · intro names listed
      have resource := listed _ ((mem_toMembers readable).mpr (.inl rfl))
      have ability := listed _ ((mem_toMembers readable).mpr (.inr (.inl rfl)))
      have others := Dict.restrict_eq_self (d := a.extra) fun e member =>
        listed e ((mem_toMembers readable).mpr (.inr (.inr member)))
      simp only [Draft.finish, draft, if_pos resource, if_pos ability, others]
      rfl

theorem yields_member {depth : Nat} (d : Draft) (name : String) (read : Reader Draft)
    (others : ∀ e ∈ d.extra.entries, e.1 ∉ fieldNames ∧ Fits depth e.2)
    (found : Draft.member depth d name = .ok read) :
    Yields read fun d => ∀ e ∈ d.extra.entries, e.1 ∉ fieldNames ∧ Fits depth e.2 := by
  unfold Draft.member at found
  split at found
  · exact ((yields_true _).map fun _ _ => others).once found
  split at found
  · exact ((yields_true _).map fun _ _ => others).once found
  next noResource noAbility =>
    cases found
    have unknown : name ∉ fieldNames := by simp [fieldNames, noResource, noAbility]
    exact (yields_value depth).map fun v fits => forall_insertEntry ⟨unknown, fits⟩ others

theorem yields_reader (depth : Nat) :
    Yields (reader depth) fun a => a.Readable ∧ Fits depth (Json.ofMembers a.toMembers) := by
  cases depth with
  | zero => exact yields_object_none.andThen (p := fun _ => False) nofun
  | succ depth =>
    refine (yields_object yields_member (by simp [Dict.empty])).andThen fun d a others made => ?_
    simp only [Draft.finish, bind_eq_ok] at made
    obtain ⟨resource, -, ability, -, made⟩ := made
    cases made
    have readable : Readable ⟨resource, ability, d.extra⟩ := fun e member => (others e member).1
    refine ⟨readable, fits_object.mpr ⟨Dict.sorted _, fun e member => ?_⟩⟩
    rcases (mem_toMembers readable).mp member with rfl | rfl | other
    · exact fits_of_flat rfl
    · exact fits_of_flat rfl
    · exact (others e other).2

end Attenuation

end Ucan
