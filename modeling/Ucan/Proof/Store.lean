import Ucan.Proof.Reference

/-!
Where the proofs are found: in the references themselves, or in a store of tokens by their content
identifiers.
-/

set_option autoImplicit false

namespace Ucan

/-- Leads from references to tokens. It may keep a state, and answer the same reference differently
another time. -/
abbrev ProofResolver (σ : Type) := ProofReference → σ → Except ResolveError Token × σ

namespace ProofResolver

/-- Answers each reference always as the function does. -/
def ofFunction (answer : ProofReference → Except ResolveError Token) : ProofResolver Unit :=
  fun reference state => (answer reference, state)

end ProofResolver

namespace ProofReference

def resolveInline : ProofReference → Except ResolveError Token
  | inline text =>
    match Token.decode text with
    | .ok t => .ok t
    | .error e => .error (.malformed e)
  | cid id => .error (.notFound id.toString)

end ProofReference

structure ProofStore where
  entries : List (Cid × Token)
  distinct : (entries.map (·.1)).Nodup

namespace ProofStore

def empty : ProofStore := ⟨[], List.nodup_nil⟩

/-- A token that was stored with the same identifier is replaced. -/
def put (store : ProofStore) (id : Cid) (t : Token) : ProofStore where
  entries := (id, t) :: store.entries.filter (·.1 != id)
  distinct := by
    rw [List.map_cons, List.nodup_cons]
    refine ⟨by simp, ?_⟩
    exact (List.filter_sublist.map _).nodup store.distinct

def insert (store : ProofStore) (t : Token) (h : HashAlgorithm) : ProofStore :=
  store.put (t.cid h) t

def get? (store : ProofStore) (id : Cid) : Option Token := store.entries.lookup id

def size (store : ProofStore) : Nat := store.entries.length

def isEmpty (store : ProofStore) : Bool := store.entries.isEmpty

@[simp] theorem get?_empty (id : Cid) : empty.get? id = none := rfl

theorem lookup_filter_ne (id found : Cid) (h : found ≠ id) (entries : List (Cid × Token)) :
    (entries.filter (·.1 != id)).lookup found = entries.lookup found := by
  induction entries with
  | nil => rfl
  | cons e rest ih =>
    obtain ⟨k, t⟩ := e
    by_cases hk : k = id
    · subst hk
      have : (found == k) = false := by simp [h]
      simp [List.lookup_cons, ih, this]
    · simp [List.lookup_cons, hk, ih]

theorem get?_put (store : ProofStore) (id found : Cid) (t : Token) :
    (store.put id t).get? found = if found = id then some t else store.get? found := by
  by_cases h : found = id
  · simp [put, get?, h]
  · have : (found == id) = false := by simp [h]
    simp [put, get?, List.lookup_cons, this, h, lookup_filter_ne id found h]

/-- Identifiers are looked up, and other references hold their tokens themselves. -/
def resolve (store : ProofStore) : ProofReference → Except ResolveError Token
  | .cid id =>
    match store.get? id with
    | some t => .ok t
    | none => .error (.notFound id.toString)
  | .inline text => (ProofReference.inline text).resolveInline

end ProofStore

end Ucan
