import Ucan.Capability
import Ucan.Proofs.Dict

/-!
A map of capabilities as what it says of each ability over each resource. This is what was claimed
of it, in the order of the claims. A map that is listed and put together again loses nothing but
the resources without abilities.
-/

set_option autoImplicit false

namespace Ucan

namespace Capability

def IsOf (resource ability : String) (c : Capability) : Prop :=
  c.resource = resource ∧ c.ability = ability

instance (resource ability : String) : DecidablePred (IsOf resource ability) :=
  fun c => inferInstanceAs (Decidable (c.resource = resource ∧ c.ability = ability))

/-- It comes before the other by its resource, or with the same resource by its ability. -/
def Precedes (c d : Capability) : Prop :=
  Before c.resource d.resource ∨ c.resource = d.resource ∧ Before c.ability d.ability

def claimsOf (claims : List Capability) (resource ability : String) : List Capability :=
  claims.filter fun c => c.IsOf resource ability

/-- What is claimed of an ability over a resource, put together in the order of the claims. -/
def grouped (claims : List Capability) (resource ability : String) : Option Capability :=
  if claimsOf claims resource ability = [] then none
  else some ⟨resource, ability, (claimsOf claims resource ability).flatMap (·.caveats)⟩

/-- The list has one capability for each ability over a resource that is claimed, and no others. -/
structure Groups (claims list : List Capability) : Prop where
  ordered : list.Pairwise Precedes
  each : ∀ resource ability,
    claimsOf list resource ability = (grouped claims resource ability).toList

variable {claims : List Capability} {resource ability : String} {c d : Capability}

theorem claimsOf_cons :
    claimsOf (c :: claims) resource ability =
      if c.IsOf resource ability then c :: claimsOf claims resource ability
      else claimsOf claims resource ability := by
  by_cases here : c.IsOf resource ability <;> simp [claimsOf, here]

theorem mem_claimsOf :
    c ∈ claimsOf claims resource ability ↔ c ∈ claims ∧ c.IsOf resource ability := by
  simp [claimsOf]

theorem Precedes.not_isOf (precedes : c.Precedes d) (first : c.IsOf resource ability) :
    ¬d.IsOf resource ability := by
  intro second
  rcases precedes with before | ⟨_, before⟩
  next => exact before.ne (first.1.trans second.1.symm)
  next => exact before.ne (first.2.trans second.2.symm)

end Capability

namespace CapabilityMap

open Capability

variable {map other : CapabilityMap} {claims others : List Capability}
  {resource ability : String} {c : Capability}

/-- The caveats that apply to the ability over the resource, if the map has it. -/
def caveats? (map : CapabilityMap) (resource ability : String) : Option (List Members) :=
  (Dict.find? map resource).bind (·.find? ability)

theorem caveats?_eq_some_iff {caveats : List Members} :
    map.caveats? resource ability = some caveats ↔
      ∃ abilities, (resource, abilities) ∈ map.entries ∧
        (ability, caveats) ∈ abilities.entries := by
  simp [caveats?, Option.bind_eq_some_iff, Dict.find?_eq_some_iff]

/-! ## Claims -/

theorem caveats?_claim (map : CapabilityMap) (c : Capability) (resource ability : String) :
    (map.claim c).caveats? resource ability =
      if c.IsOf resource ability then some ((map.caveats? resource ability).getD [] ++ c.caveats)
      else map.caveats? resource ability := by
  have found (ability : String) : ((Dict.find? map c.resource).getD .empty).find? ability =
      map.caveats? c.resource ability := by
    rw [caveats?]
    cases Dict.find? map c.resource <;> rfl
  rw [caveats?, claim, Dict.find?_alter]
  by_cases sameResource : resource = c.resource
  next =>
    rw [if_pos sameResource, Option.bind_some, Dict.find?_alter, found, found, ← sameResource]
    by_cases same : ability = c.ability <;> simp [IsOf, sameResource, same, Ne.symm]
  next => simp [IsOf, sameResource, Ne.symm sameResource, caveats?]

theorem caveats?_foldl_claim (map : CapabilityMap) (claims : List Capability)
    (resource ability : String) :
    (claims.foldl claim map).caveats? resource ability =
      if claimsOf claims resource ability = [] then map.caveats? resource ability
      else some ((map.caveats? resource ability).getD [] ++
        (claimsOf claims resource ability).flatMap (·.caveats)) := by
  induction claims generalizing map with
  | nil => rfl
  | cons c claims ih =>
    rw [List.foldl_cons, ih, caveats?_claim, claimsOf_cons]
    by_cases here : c.IsOf resource ability <;>
      by_cases last : claimsOf claims resource ability = [] <;> simp [here, last]

theorem caveats?_ofList (claims : List Capability) (resource ability : String) :
    (ofList claims).caveats? resource ability =
      (grouped claims resource ability).map (·.caveats) := by
  have nothing : caveats? .empty resource ability = none := rfl
  rw [ofList, caveats?_foldl_claim, grouped]
  split <;> simp [nothing]

/-! ## Listing -/

theorem mem_toList : c ∈ map.toList ↔ map.caveats? c.resource c.ability = some c.caveats := by
  rw [caveats?_eq_some_iff, toList, List.mem_flatMap]
  constructor
  next =>
    rintro ⟨⟨resource, abilities⟩, outer, member⟩
    obtain ⟨⟨ability, caveats⟩, inner, same⟩ := List.mem_map.mp member
    cases same
    exact ⟨abilities, outer, inner⟩
  next =>
    rintro ⟨abilities, outer, inner⟩
    exact ⟨_, outer, List.mem_map.mpr ⟨_, inner, rfl⟩⟩

theorem ordered_toList (map : CapabilityMap) : map.toList.Pairwise Precedes := by
  rw [toList, List.pairwise_flatMap]
  constructor
  next =>
    intro e _
    rw [List.pairwise_map]
    exact e.2.sorted.imp fun before => .inr ⟨rfl, before⟩
  next =>
    refine map.sorted.imp fun {e f} before c inside d later => ?_
    obtain ⟨_, _, rfl⟩ := List.mem_map.mp inside
    obtain ⟨_, _, rfl⟩ := List.mem_map.mp later
    exact .inl before

theorem mem_claimsOf_toList (map : CapabilityMap) (resource ability : String) (c : Capability) :
    c ∈ claimsOf map.toList resource ability ↔
      c.IsOf resource ability ∧ map.caveats? resource ability = some c.caveats := by
  rw [mem_claimsOf, mem_toList]
  constructor
  next =>
    rintro ⟨found, rfl, rfl⟩
    exact ⟨⟨rfl, rfl⟩, found⟩
  next =>
    rintro ⟨⟨rfl, rfl⟩, found⟩
    exact ⟨found, rfl, rfl⟩

theorem claimsOf_toList (map : CapabilityMap) (resource ability : String) :
    claimsOf map.toList resource ability =
      ((map.caveats? resource ability).map (⟨resource, ability, ·⟩)).toList := by
  have member := mem_claimsOf_toList map resource ability
  have ordered : (claimsOf map.toList resource ability).Pairwise Precedes :=
    (ordered_toList map).filter _
  cases listed : claimsOf map.toList resource ability with
  | nil =>
    rw [listed] at member
    cases found : map.caveats? resource ability with
    | none => rfl
    | some caveats => cases (member ⟨resource, ability, caveats⟩).mpr ⟨⟨rfl, rfl⟩, found⟩
  | cons c later =>
    rw [listed] at member ordered
    obtain ⟨⟨rfl, rfl⟩, found⟩ := (member c).mp List.mem_cons_self
    -- Of two capabilities in order, not both can be of one ability over one resource.
    have alone : later = [] := by
      refine List.eq_nil_iff_forall_not_mem.mpr fun d inside => ?_
      have precedes := (List.pairwise_cons.mp ordered).1 d inside
      exact precedes.not_isOf ⟨rfl, rfl⟩ ((member d).mp (List.mem_cons_of_mem _ inside)).1
    rw [alone, found]
    rfl

theorem groups_toList_ofList (claims : List Capability) :
    Groups claims (ofList claims).toList := by
  refine ⟨ordered_toList _, fun resource ability => ?_⟩
  rw [claimsOf_toList, caveats?_ofList, grouped]
  split <;> rfl

/-! ## Resources without abilities -/

def Full (map : CapabilityMap) : Prop := ∀ e ∈ map.entries, e.2.isEmpty = false

def withoutEmpty (map : CapabilityMap) : CapabilityMap :=
  ⟨map.entries.filter fun e => !e.2.isEmpty, map.sorted.filter _⟩

theorem full_withoutEmpty (map : CapabilityMap) : map.withoutEmpty.Full := by
  intro e member
  simpa using (List.mem_filter.mp member).2

theorem caveats?_withoutEmpty (map : CapabilityMap) (resource ability : String) :
    map.withoutEmpty.caveats? resource ability = map.caveats? resource ability := by
  ext caveats
  rw [caveats?_eq_some_iff, caveats?_eq_some_iff]
  constructor
  next =>
    rintro ⟨abilities, outer, inner⟩
    exact ⟨abilities, (List.mem_filter.mp outer).1, inner⟩
  next =>
    rintro ⟨abilities, outer, inner⟩
    have used := Dict.isEmpty_of_find? (Dict.find?_eq_some_iff.mpr inner)
    exact ⟨abilities, List.mem_filter.mpr ⟨outer, by simp [used]⟩, inner⟩

theorem Full.claim (full : map.Full) (c : Capability) : (map.claim c).Full := by
  rintro ⟨resource, abilities⟩ member
  rw [← Dict.find?_eq_some_iff, CapabilityMap.claim, Dict.find?_alter] at member
  split at member
  next =>
    cases member
    exact Dict.isEmpty_of_find? ((Dict.find?_alter ..).trans (if_pos rfl))
  next => exact full _ (Dict.find?_eq_some_iff.mp member)

theorem full_ofList (claims : List Capability) : (ofList claims).Full := by
  have from_map (map : CapabilityMap) (full : map.Full) : (claims.foldl claim map).Full := by
    induction claims generalizing map with
    | nil => exact full
    | cons c claims ih => exact ih (map.claim c) (full.claim c)
  exact from_map .empty nofun

theorem Full.exists_caveats {abilities : Dict (List Members)} (full : map.Full)
    (found : Dict.find? map resource = some abilities) :
    ∃ ability caveats, map.caveats? resource ability = some caveats := by
  have member := Dict.find?_eq_some_iff.mp found
  have used : abilities.entries ≠ [] := by simpa [Dict.isEmpty] using full _ member
  obtain ⟨⟨ability, caveats⟩, inner⟩ := List.exists_mem_of_ne_nil _ used
  exact ⟨ability, caveats, caveats?_eq_some_iff.mpr ⟨abilities, member, inner⟩⟩

theorem Full.eq_of_caveats? (full : map.Full) (otherFull : other.Full)
    (same : ∀ resource ability,
      map.caveats? resource ability = other.caveats? resource ability) : map = other := by
  refine Dict.ext_find? fun resource => ?_
  specialize same resource
  cases found : Dict.find? map resource with
  | none =>
    cases there : Dict.find? other resource with
    | none => rfl
    | some abilities =>
      obtain ⟨ability, caveats, holds⟩ := otherFull.exists_caveats there
      rw [← same, caveats?, found] at holds
      cases holds
  | some abilities =>
    cases there : Dict.find? other resource with
    | none =>
      obtain ⟨ability, caveats, holds⟩ := full.exists_caveats found
      rw [same, caveats?, there] at holds
      cases holds
    | some others =>
      have inner : abilities = others := by
        refine Dict.ext_find? fun ability => ?_
        simpa [caveats?, found, there] using same ability
      rw [inner]

/-- Only the order of the claims of the same ability over the same resource counts. -/
theorem ofList_congr (same : ∀ resource ability,
    claimsOf claims resource ability = claimsOf others resource ability) :
    ofList claims = ofList others := by
  refine (full_ofList claims).eq_of_caveats? (full_ofList others) fun resource ability => ?_
  rw [caveats?_ofList, caveats?_ofList, grouped, grouped, same]

theorem ofList_toList (map : CapabilityMap) : ofList map.toList = map.withoutEmpty := by
  refine (full_ofList _).eq_of_caveats? (full_withoutEmpty map) fun resource ability => ?_
  rw [caveats?_ofList, caveats?_withoutEmpty, grouped, claimsOf_toList]
  cases map.caveats? resource ability <;> simp

end CapabilityMap

end Ucan
