import Ucan.Proofs.Cid
import Ucan.Proofs.Delegation.Graph
import Ucan.Proofs.Store

/-!
A store answers for its references: what was put into it is found by the text of its identifier, and
no walk that asks it fails because of an answer that does not fit.
-/

set_option autoImplicit false

namespace Ucan

namespace ProofStore

variable {store : ProofStore} {id : Cid} {t : Token}

theorem resolve_cid (got : store.get? id = some t) : store.resolve (.cid id) = .ok t := by
  rw [resolve, got]

/-- Whatever a store answers is what was asked for. -/
theorem Keyed.admits {reference : String} {target : ProofTarget} (keyed : store.Keyed)
    (parsed : ProofTarget.parse reference = .ok target)
    (answered : store.resolve target.reference = .ok t) : target.admits t = true := by
  obtain ⟨_, known⟩ := Delegation.parse_eq_ok_iff.mp parsed
  obtain ⟨asked, hasher⟩ := target
  cases asked with
  | inline text => rfl
  | cid id =>
    simp only [ProofReference.hasher] at known
    split at known
    next g hash =>
      cases known
      rw [resolve] at answered
      split at answered
      next found got =>
        cases answered
        obtain ⟨h, same⟩ := keyed id t got
        rw [← same, Token.cid, HashAlgorithm.hasher?_cid] at hash
        cases hash
        exact beq_iff_eq.mpr same
      next => cases answered
    next => cases known

/-- A store never fails by itself. -/
theorem resolve_ne_lookup (store : ProofStore) (reference : ProofReference) (reason : String) :
    store.resolve reference ≠ .error (.lookup reason) := by
  intro answered
  cases reference with
  | inline text =>
    rw [resolve, ProofReference.resolveInline] at answered
    split at answered
    all_goals cases answered
  | cid id =>
    rw [resolve] at answered
    split at answered
    all_goals cases answered

end ProofStore

theorem ProofTarget.invalid_of_parse {text : String} {e : ResolveError}
    (refused : ProofTarget.parse text = .error e) :
    ∃ reference, e = .invalidReference reference := by
  rw [ProofTarget.parse] at refused
  cases parsed : ProofReference.parse text with
  | error found =>
    rw [parsed] at refused
    cases refused
    unfold ProofReference.parse at parsed
    repeat' split at parsed
    all_goals cases parsed
    all_goals exact ⟨text, rfl⟩
  | ok reference =>
    rw [parsed] at refused
    cases reference with
    | inline text => cases refused
    | cid id =>
      cases known : id.hasher? with
      | none =>
        simp only [bind, Except.bind, ProofReference.hasher, known] at refused
        cases refused
        exact ⟨_, rfl⟩
      | some h =>
        simp only [bind, Except.bind, ProofReference.hasher, known] at refused
        cases refused

namespace ChainError

/-- The resolver answered with another token than the one it was asked for, or could not answer. -/
def BlamesResolver : ChainError → Prop
  | proofMismatch _ | lookupFailed _ _ => True
  | _ => False

end ChainError

namespace Delegation

variable {σ : Type} {c : Context σ} {store : ProofStore} {e : ChainError}

theorem not_blames_of_find {reference : String} (keyed : store.Keyed)
    (failed : Lookup.find store.resolve reference = .error e) : ¬e.BlamesResolver := by
  unfold Lookup.find at failed
  split at failed
  next refused =>
    cases failed
    have ⟨_, invalid⟩ := ProofTarget.invalid_of_parse refused
    rw [invalid]
    exact id
  next target parsed =>
    cases answered : store.resolve target.reference with
    | ok proof =>
      rw [answered, ProofTarget.check, if_pos (keyed.admits parsed answered)] at failed
      cases failed
    | error reason =>
      rw [answered] at failed
      cases failed
      cases reason with
      | lookup reason => exact absurd answered (store.resolve_ne_lookup _ reason)
      | _ => exact id

theorem not_blames_of_checkLink {keys : KeyResolver} {now : UInt64} {reference : String}
    {child proof : Token} (failed : checkLink keys now reference child proof = .error e) :
    ¬e.BlamesResolver := by
  unfold checkLink at failed
  repeat' split at failed
  all_goals cases failed
  all_goals exact id

theorem not_blames_of_follow {link : Link} {w after : Walk σ}
    (answers : Answers c.resolve store.resolve) (keyed : store.Keyed)
    (failed : c.follow link w = (.error e, after)) : ¬e.BlamesResolver := by
  have same := find_answers answers link w
  unfold Context.follow at failed
  split at failed
  next found =>
    cases failed
    rw [found] at same
    exact not_blames_of_find keyed same.symm
  next =>
    split at failed
    next checked =>
      cases failed
      exact not_blames_of_checkLink checked
    next => cases failed

theorem not_blames_of_done {w after : Walk σ} (answers : Answers c.resolve store.resolve)
    (keyed : store.Keyed) (turned : c.turn w = .done (.error e, after)) : ¬e.BlamesResolver := by
  unfold Context.turn at turned
  split at turned
  next => cases turned
  next =>
    split at turned
    next =>
      cases turned
      exact id
    next =>
      split at turned
      next failed =>
        cases turned
        exact not_blames_of_follow answers keyed failed
      next => cases turned

theorem not_blames_of_run {w : Walk σ} (answers : Answers c.resolve store.resolve)
    (keyed : store.Keyed) (failed : (c.run w).1 = .error e) : ¬e.BlamesResolver := by
  induction w using Context.run.induct c with
  | case1 w outcome turned =>
    have ⟨result, after⟩ := outcome
    rw [Context.run_of_done turned] at failed
    cases failed
    exact not_blames_of_done answers keyed turned
  | case2 w next turned ih =>
    rw [Context.run_of_next turned] at failed
    exact ih failed

end Delegation

/-- What was put into a store is found by the text of its identifier, unless another token has the
same one, and no answer of the store is ever the fault of a walk. -/
theorem ProofStore.coherent (entries : List (Token × HashAlgorithm))
    (decoded : ∀ e ∈ entries, ∃ limit text, Token.decodeWithin limit text = .ok e.1) :
    let store := empty.insertAll entries
    (∀ t h, (t, h) ∈ entries →
      (∀ e ∈ entries, e.2 = h → e.1.cid h = t.cid h → e.1.encode = t.encode) →
      ProofReference.parse (t.cid h).toString = .ok (.cid (t.cid h)) ∧
        (ProofReference.cid (t.cid h)).hasher = .ok (some h) ∧
        store.resolve (.cid (t.cid h)) = .ok t ∧
        Delegation.Lookup.find store.resolve (t.cid h).toString = .ok t) ∧
    ∀ (keys : KeyResolver) (maxDepth : Nat) (now : UInt64),
      let c : Delegation.Context Unit := ⟨.ofFunction store.resolve, keys, maxDepth, now⟩
      (∀ link w e, (c.find link w).1 = .error e → ¬e.BlamesResolver) ∧
        ∀ t e, (c.walk t ()).1 = .error e → ¬e.BlamesResolver := by
  intro store
  have keyed : store.Keyed := keyed_empty.insertAll entries
  refine ⟨?_, ?_⟩
  next =>
    intro t h inserted apart
    have parsed := t.parse_toString_cid h
    have known : (t.cid h).hasher? = some h := h.hasher?_cid t.wire.bytes
    have got : store.get? (t.cid h) = some t := by
      refine get?_cid inserted fun e member hash same => ?_
      have ⟨_, _, read⟩ := decoded e member
      have ⟨_, _, otherRead⟩ := decoded (t, h) inserted
      exact Token.eq_of_encode read otherRead (apart e member hash same)
    have resolved := resolve_cid got
    refine ⟨parsed, ?_, resolved, ?_⟩
    next => rw [ProofReference.hasher, known]
    next => exact Delegation.find_eq_ok_iff.mpr (.cid parsed known resolved rfl)
  next =>
    intro keys maxDepth now c
    have answers : Delegation.Answers c.resolve store.resolve := fun _ _ => rfl
    refine ⟨fun link w e failed => ?_, fun t e => Delegation.not_blames_of_run answers keyed⟩
    rw [Delegation.find_answers answers] at failed
    exact Delegation.not_blames_of_find keyed failed

theorem ProofStore.coherent_of_two :
    let root := Delegation.Sample.root
    let leaf := Delegation.Sample.leaf
    let store := empty.insertAll [(root, .standard), (leaf, .standard)]
    Token.decode root.encode = .ok root ∧ Token.decode leaf.encode = .ok leaf ∧
      ProofReference.parse (leaf.cid .standard).toString = .ok (.cid (leaf.cid .standard)) ∧
      (ProofReference.cid (leaf.cid .standard)).hasher = .ok (some .standard) ∧
      store.resolve (.cid (leaf.cid .standard)) = .ok leaf ∧
      Delegation.Lookup.find store.resolve (leaf.cid .standard).toString = .ok leaf := by
  intro root leaf store
  have decodedRoot := Delegation.Sample.decode_root
  have decodedLeaf := Delegation.Sample.decode_leaf
  have other : root.cid .standard ≠ leaf.cid .standard := Delegation.Sample.cid_ne.symm
  have decoded : ∀ e ∈ [(root, HashAlgorithm.standard), (leaf, .standard)],
      ∃ limit text, Token.decodeWithin limit text = .ok e.1 := by
    simp only [List.forall_mem_cons, List.not_mem_nil, false_imp_iff, implies_true, and_true]
    exact ⟨⟨Token.maxSize, root.encode, decodedRoot⟩, ⟨Token.maxSize, leaf.encode, decodedLeaf⟩⟩
  have ⟨found, _⟩ := coherent _ decoded
  refine ⟨decodedRoot, decodedLeaf, found leaf .standard ?_ ?_⟩
  next => exact List.mem_cons_of_mem _ List.mem_cons_self
  next =>
    simp only [List.forall_mem_cons, List.not_mem_nil, false_imp_iff, implies_true, and_true]
    exact fun _ same => absurd same other

end Ucan
