import Ucan.Builder
import Ucan.Json.Skip
import Ucan.Json.Tuple

/-!
The contents of a token to be built, as they are given in JSON: an object, or an array of all its
values in order.
-/

set_option autoImplicit false

namespace Ucan

structure BuildOptions where
  lifetime : Option UInt64 := none
  expiration : Option UInt64 := none
  notBefore : Option UInt64 := none
  facts : Option Json := none
  proofs : Option (List String) := none
  nonce : Option String := none
  capabilities : Option CapabilityMap := none

namespace BuildOptions

def settings (o : BuildOptions) : List Builder.Setting :=
  (o.lifetime.map .lifetime).toList ++ (o.expiration.map .expiration).toList ++
    (o.notBefore.map .notBefore).toList ++ (o.facts.map .facts).toList ++
    (o.nonce.map .nonce).toList ++ (o.proofs.getD []).map .proof ++
    (o.capabilities.map fun map => .capabilities map.toList).toList

/-- What was read so far; a member that was null is there and has no value. -/
structure Draft where
  lifetime : Option (Option UInt64) := none
  expiration : Option (Option UInt64) := none
  notBefore : Option (Option UInt64) := none
  facts : Option (Option Json) := none
  proofs : Option (Option (List String)) := none
  nonce : Option (Option String) := none
  capabilities : Option (Option CapabilityMap) := none

open Json.Reader

def proofsReader (depth : Nat) : Json.Reader (List String) := list (within (fun _ => string) depth)

def Draft.member (depth : Nat) (d : Draft) (name : String) :
    Except Json.Error (Json.Reader Draft) :=
  if name = "lifetimeInSeconds" then
    once name d.lifetime.isSome ((option uint64).map fun v => { d with lifetime := some v })
  else if name = "expiration" then
    once name d.expiration.isSome ((option uint64).map fun v => { d with expiration := some v })
  else if name = "notBefore" then
    once name d.notBefore.isSome ((option uint64).map fun v => { d with notBefore := some v })
  else if name = "facts" then
    once name d.facts.isSome ((option (value depth)).map fun v => { d with facts := some v })
  else if name = "proofs" then
    once name d.proofs.isSome
      ((option (proofsReader depth)).map fun v => { d with proofs := some v })
  else if name = "nonce" then
    once name d.nonce.isSome ((option string).map fun v => { d with nonce := some v })
  else if name = "capabilities" then
    once name d.capabilities.isSome
      ((option (CapabilityMap.reader depth)).map fun v => { d with capabilities := some v })
  else .ok (skip.map fun _ => d)

def Draft.finish (d : Draft) : BuildOptions where
  lifetime := d.lifetime.join
  expiration := d.expiration.join
  notBefore := d.notBefore.join
  facts := d.facts.join
  proofs := d.proofs.join
  nonce := d.nonce.join
  capabilities := d.capabilities.join

/-- The values in their order, after the opening bracket. -/
def elements (depth : Nat) : Json.Reader BuildOptions :=
  let wanted := "struct BuildOptions with 7 elements"
  (element wanted 0 (option uint64)).bind fun lifetime =>
  (element wanted 1 (option uint64)).bind fun expiration =>
  (element wanted 2 (option uint64)).bind fun notBefore =>
  (element wanted 3 (option (value depth))).bind fun facts =>
  (element wanted 4 (option (proofsReader depth))).bind fun proofs =>
  (element wanted 5 (option string)).bind fun nonce =>
  (element wanted 6 (option (CapabilityMap.reader depth))).bind fun capabilities =>
  endOfElements.map fun _ =>
    { lifetime, expiration, notBefore, facts, proofs, nonce, capabilities }

def reader : Json.Reader BuildOptions :=
  arrayOr (within elements Json.maxDepth)
    ((object "struct BuildOptions" (within Draft.member Json.maxDepth) {}).map Draft.finish)

def parse (s : Bytes) : Except Json.Error BuildOptions := Json.Reader.parse reader s

end BuildOptions

end Ucan
