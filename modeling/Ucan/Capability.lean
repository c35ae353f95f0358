import Ucan.Json.Reader

/-!
Capabilities: an ability over a resource, restricted by caveats. A payload lists them as a map from
resources to abilities to caveats, or in the older layout as a list of attenuations.
-/

set_option autoImplicit false

namespace Ucan

structure Capability where
  resource : String
  ability : String
  caveats : List Members
  deriving DecidableEq

def Capability.of (resource ability : String) : Capability := ⟨resource, ability, []⟩

def Capability.withCaveat (c : Capability) (caveat : Members) : Capability :=
  { c with caveats := c.caveats ++ [caveat] }

/-- Resource, then ability, then the caveats that apply to it. -/
abbrev CapabilityMap := Dict (Dict (List Members))

namespace CapabilityMap

/-- Adds the caveats after those that the ability over the resource has. -/
def claim (map : CapabilityMap) (c : Capability) : CapabilityMap :=
  map.alter c.resource fun abilities =>
    (abilities.getD .empty).alter c.ability fun caveats => caveats.getD [] ++ c.caveats

def ofList (capabilities : List Capability) : CapabilityMap := capabilities.foldl claim .empty

def toList (map : CapabilityMap) : List Capability :=
  map.entries.flatMap fun (resource, abilities) =>
    abilities.entries.map fun (ability, caveats) => ⟨resource, ability, caveats⟩

def toJson (map : CapabilityMap) : Json :=
  .object (map.entries.map fun (resource, abilities) =>
    (resource, .object (abilities.entries.map fun (ability, caveats) =>
      (ability, .array (caveats.map Json.ofMembers)))))

open Json.Reader in
def reader (depth : Nat) : Json.Reader CapabilityMap :=
  dict (within (fun depth => dict (within (fun depth => list (within memberDict depth)) depth))
    depth)

end CapabilityMap

/-- A capability in the older layout. -/
structure Attenuation where
  resource : String
  ability : String
  extra : Members
  deriving DecidableEq

namespace Attenuation

/-- The other members make up one caveat, if there are any. -/
def toCapability (a : Attenuation) : Capability :=
  ⟨a.resource, a.ability, if a.extra.isEmpty then [] else [a.extra]⟩

def toMembers (a : Attenuation) : Members :=
  (Dict.ofList [("with", .string a.resource), ("can", .string a.ability)]).insertAll
    a.extra.entries

/-- What was read of an attenuation so far. -/
structure Draft where
  resource : Option String := none
  ability : Option String := none
  extra : Members := .empty

open Json.Reader in
def Draft.member (depth : Nat) (d : Draft) (name : String) :
    Except Json.Error (Json.Reader Draft) :=
  if name = "with" then
    once name d.resource.isSome (string.map fun v => { d with resource := some v })
  else if name = "can" then
    once name d.ability.isSome (string.map fun v => { d with ability := some v })
  else .ok ((value depth).map fun v => { d with extra := d.extra.insert name v })

def Draft.finish (d : Draft) : Except Json.Error Attenuation := do
  let resource ← Json.required "with" d.resource
  let ability ← Json.required "can" d.ability
  return ⟨resource, ability, d.extra⟩

open Json.Reader in
def reader (depth : Nat) : Json.Reader Attenuation :=
  (object "struct Attenuation" (within Draft.member depth) {}).andThen Draft.finish

end Attenuation

end Ucan
