import Ucan.Proof.Store

/-!
What a store holds after any number of tokens were put into it.
-/

set_option autoImplicit false

namespace Ucan.ProofStore

/-- The tokens are put in one after another, each under the hash function beside it. -/
def insertAll (store : ProofStore) (entries : List (Token × HashAlgorithm)) : ProofStore :=
  entries.foldl (fun store e => store.insert e.1 e.2) store

theorem insertAll_cons (store : ProofStore) (e : Token × HashAlgorithm)
    (rest : List (Token × HashAlgorithm)) :
    store.insertAll (e :: rest) = (store.insert e.1 e.2).insertAll rest := by
  rw [insertAll, List.foldl_cons, insertAll]

/-- An identifier leads to a token that was put in under it, and otherwise to what it led to. -/
theorem get?_insertAll (store : ProofStore) (entries : List (Token × HashAlgorithm)) (id : Cid) :
    (∃ e ∈ entries, e.1.cid e.2 = id ∧ (store.insertAll entries).get? id = some e.1) ∨
      (store.insertAll entries).get? id = store.get? id := by
  induction entries generalizing store with
  | nil => exact .inr rfl
  | cons e rest ih =>
    rw [insertAll_cons]
    rcases ih (store.insert e.1 e.2) with ⟨f, member, same, found⟩ | kept
    · exact .inl ⟨f, List.mem_cons_of_mem e member, same, found⟩
    · rw [kept, insert, get?_put]
      split
      next same => exact .inl ⟨e, List.mem_cons_self, same.symm, rfl⟩
      next => exact .inr rfl

variable {store : ProofStore} {entries : List (Token × HashAlgorithm)} {t : Token}
  {h : HashAlgorithm}

/-- Each token is found under an identifier that it has. -/
def Keyed (store : ProofStore) : Prop :=
  ∀ id t, store.get? id = some t → ∃ h : HashAlgorithm, t.cid h = id

theorem keyed_empty : Keyed empty := by
  intro id t got
  cases got

theorem Keyed.insert (keyed : store.Keyed) (t : Token) (h : HashAlgorithm) :
    (store.insert t h).Keyed := by
  intro id found got
  rw [ProofStore.insert, get?_put] at got
  split at got
  next same =>
    cases got
    exact ⟨h, same.symm⟩
  next => exact keyed id found got

theorem Keyed.insertAll (keyed : store.Keyed) (entries : List (Token × HashAlgorithm)) :
    (store.insertAll entries).Keyed := by
  induction entries generalizing store with
  | nil => exact keyed
  | cons e rest ih =>
    rw [insertAll_cons]
    exact ih (keyed.insert e.1 e.2)

/-- The hash function is part of the identifier, so that only tokens under the same one can be in
each other's way. -/
theorem hash_eq_of_cid {other : Token} {g : HashAlgorithm} (same : t.cid h = other.cid g) :
    h = g := by
  have known := h.hasher?_cid t.wire.bytes
  have otherKnown := g.hasher?_cid other.wire.bytes
  rw [← Token.cid] at known otherKnown
  rw [same, otherKnown] at known
  exact (Option.some.inj known).symm

/-- An identifier that a token was put in under leads to a token with that identifier. -/
theorem exists_get?_of_mem (store : ProofStore) (inserted : (t, h) ∈ entries) :
    ∃ e ∈ entries, e.1.cid e.2 = t.cid h ∧ (store.insertAll entries).get? (t.cid h) = some e.1 := by
  induction entries generalizing store with
  | nil => cases inserted
  | cons first rest ih =>
    rw [insertAll_cons]
    rcases List.mem_cons.mp inserted with same | later
    next =>
      rw [← same]
      rcases get?_insertAll (store.insert t h) rest (t.cid h) with ⟨e, member, again, got⟩ | kept
      next => exact ⟨e, List.mem_cons_of_mem _ member, again, got⟩
      next =>
        refine ⟨(t, h), List.mem_cons_self, rfl, ?_⟩
        rw [kept, ProofStore.insert, get?_put, if_pos rfl]
    next =>
      have ⟨e, member, same, got⟩ := ih (store.insert first.1 first.2) later
      exact ⟨e, List.mem_cons_of_mem _ member, same, got⟩

theorem get?_cid (inserted : (t, h) ∈ entries)
    (apart : ∀ e ∈ entries, e.2 = h → e.1.cid h = t.cid h → e.1 = t) :
    (empty.insertAll entries).get? (t.cid h) = some t := by
  have ⟨e, member, same, got⟩ := exists_get?_of_mem empty inserted
  have hash := hash_eq_of_cid same
  rw [hash] at same
  rw [got, apart e member hash same]

end Ucan.ProofStore
