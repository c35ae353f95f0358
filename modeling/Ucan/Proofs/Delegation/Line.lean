import Ucan.Proof.Store
import Ucan.Proofs.Cid
import Ucan.Proofs.Delegation.Graph
import Ucan.Proofs.Operations
import Ucan.Proofs.PayloadText
import Ucan.Proofs.Settings

/-!
Delegations without branches, each token built and signed with the one before as its only proof:
these are valid up to exactly the limit on their length.
-/

set_option autoImplicit false

namespace Ucan

/-! ## Stores -/

namespace ProofStore

/-- The store that the tokens were put into one after another. -/
def ofList (tokens : List Token) : ProofStore := tokens.foldl (·.insert · .standard) .empty

theorem get?_ofList {tokens : List Token} {t : Token} (member : t ∈ tokens)
    (alone : ∀ other ∈ tokens, other.cid .standard = t.cid .standard → other = t) :
    (ofList tokens).get? (t.cid .standard) = some t := by
  -- It is still to come or it is there already, and nothing but itself can replace it.
  have from_store : ∀ store : ProofStore,
      t ∈ tokens ∨ store.get? (t.cid .standard) = some t →
      (tokens.foldl (·.insert · .standard) store).get? (t.cid .standard) = some t := by
    clear member
    induction tokens with
    | nil =>
      rintro store (member | found)
      · cases member
      · exact found
    | cons head rest ih =>
      rw [List.forall_mem_cons] at alone
      intro store before
      apply ih alone.2
      change t ∈ rest ∨ (store.put (head.cid .standard) head).get? (t.cid .standard) = some t
      rw [get?_put]
      by_cases same : t.cid .standard = head.cid .standard
      · rw [if_pos same, alone.1 same.symm]
        exact .inr rfl
      · rw [if_neg same]
        rcases before with member | found
        · exact .inl ((List.mem_cons.mp member).resolve_left fun own => same (own ▸ rfl))
        · exact .inr found
  exact from_store .empty (.inl member)

end ProofStore

/-! ## What is said of a token that was built -/

namespace Builder

theorem quotable_toString (id : Cid) : Quotable id.toString := by
  have plain : (Multibase.Base.base32.alphabet.all fun c =>
      Ascii.quote ∉ (String.utf8EncodeChar c).flatMap Json.escapeByte) = true := by decide
  rw [Quotable, ← String.ofList_toList (s := id.toString), utf8_ofList, List.flatMap_assoc]
  intro member
  obtain ⟨c, symbol, inside⟩ := List.mem_flatMap.mp member
  exact absurd inside (of_decide_eq_true (List.all_eq_true.mp plain c (Cid.mem_toString symbol)))

end Builder

namespace Delegation

/-- The token was built and signed for the recipient, and the one before is its only proof, if there
is one. Only its issuer can have signed it. -/
structure Handed (issuer : Keypair) (recipient : Did) (before : Option Token) (t : Token) : Prop where
  built : ∃ settings now, (Builder.ofSettings settings).buildSigned now issuer.signer = .ok t ∧
    settings.filter (·.proof?.isSome) = (before.map Builder.Setting.witnessedBy).toList
  recipient : t.audience = recipient

namespace Handed

variable {k l : Keypair} {recipient : Did} {before : Option Token} {t : Token}

theorem exists_draft (handed : Handed k recipient before t) :
    ∃ (b : Builder) (now : UInt64) (draft : Token), b.build now = .ok draft ∧
      draft.sign k.signer = .ok t ∧
      b.proofs = (before.map fun p => (p.cid .standard).toString).toList := by
  obtain ⟨settings, now, built, listed⟩ := handed.built
  obtain ⟨draft, drafted, signed⟩ := Builder.buildSigned_eq_ok_iff.mp built
  refine ⟨_, now, draft, drafted, signed, ?_⟩
  have only : settings.filterMap Builder.Setting.proof? =
      (settings.filter (·.proof?.isSome)).filterMap Builder.Setting.proof? := by
    rw [List.filterMap_filter]
    congr 1
    funext s
    cases s.proof? <;> rfl
  rw [Builder.proofs_ofSettings, only, listed]
  cases before <;> rfl

theorem issuer (handed : Handed k recipient before t) : t.issuer = k.did := by
  obtain ⟨_, _, _, -, signed, -⟩ := handed.exists_draft
  obtain ⟨-, issuer, -, _, -, rfl⟩ := Token.sign_eq_ok_iff.mp signed
  exact issuer.symm

theorem checkSignature (handed : Handed k recipient before t) (verifies : k.Verifies) :
    t.checkSignature .ofDid = .ok () := by
  obtain ⟨_, _, _, -, signed, -⟩ := handed.exists_draft
  exact Token.checkSignature_of_sign verifies rfl signed

theorem canonical (handed : Handed k recipient before t) (verifies : k.Verifies) :
    t.Canonical := by
  obtain ⟨_, _, _, drafted, signed, -⟩ := handed.exists_draft
  exact (Builder.canonical_of_build drafted).sign verifies signed

theorem exists_payload (handed : Handed k recipient before t) :
    ∃ (b : Builder) (issuer audience : Did) (expiresAt : Option UInt64),
      t.payload = b.payload issuer audience expiresAt ∧
      b.proofs = (before.map fun p => (p.cid .standard).toString).toList := by
  obtain ⟨b, _, _, drafted, signed, listed⟩ := handed.exists_draft
  obtain ⟨-, -, -, _, -, rfl⟩ := Token.sign_eq_ok_iff.mp signed
  obtain ⟨issuer, _, audience, expiresAt, -, -, -, -, rfl⟩ := Builder.build_eq_ok_iff.mp drafted
  exact ⟨b, issuer, audience, expiresAt, rfl, listed⟩

theorem proofs (handed : Handed k recipient before t) :
    t.proofs = (before.map fun p => (p.cid .standard).toString).toList := by
  obtain ⟨b, issuer, audience, expiresAt, payload, listed⟩ := handed.exists_payload
  rw [Token.proofs, payload, Builder.proofs_payload, listed]

theorem proofs_eq_of_encode {other : Token} {otherRecipient : Did} {otherBefore : Option Token}
    (handed : Handed k recipient before t) (otherHanded : Handed l otherRecipient otherBefore other)
    (verifies : k.Verifies) (otherVerifies : l.Verifies) (same : t.encode = other.encode) :
    t.proofs = other.proofs := by
  have canonical := handed.canonical verifies
  have otherCanonical := otherHanded.canonical otherVerifies
  have read := Wire.ofBytes_utf8_eq_ok_iff.mpr ⟨canonical.proper, rfl⟩
  have otherRead := Wire.ofBytes_utf8_eq_ok_iff.mpr ⟨otherCanonical.proper, same.symm⟩
  have wire : t.wire = other.wire := Except.ok.inj (read.symm.trans otherRead)
  have payload : t.payload.toJson.canonical = other.payload.toJson.canonical := by
    rw [← canonical.payload, wire, otherCanonical.payload]
  obtain ⟨b, issuer, audience, expiresAt, made, listed⟩ := handed.exists_payload
  obtain ⟨c, i, a, e, otherMade, otherListed⟩ := otherHanded.exists_payload
  have few : ∀ p : Option Token,
      (p.map fun p => (p.cid .standard).toString).toList.length ≤ 1 := by
    intro p
    cases p <;> simp
  have quotable : ∀ p : Option Token, ∀ text ∈ (p.map fun p => (p.cid .standard).toString).toList,
      Builder.Quotable text := by
    intro p
    cases p <;> simp [Builder.quotable_toString]
  rw [made, otherMade] at payload
  rw [handed.proofs, otherHanded.proofs, ← listed, ← otherListed]
  exact Builder.proofs_eq_of_canonical (listed ▸ few _) (otherListed ▸ few _)
    (listed ▸ quotable _) (otherListed ▸ quotable _) payload

end Handed

/-! ## The walk along a line -/

section

variable {σ : Type} {answer : Lookup} {c : Context σ} {t : Nat → Token} {n : Nat}

/-- Each token but the first has one proof, and it is the token before it. -/
structure Follows (answer : Lookup) (c : Context σ) (t : Nat → Token) (n : Nat) : Prop where
  first : (t 0).proofs = []
  next : ∀ i < n, ∃ reference, (t (i + 1)).proofs = [reference] ∧
    answer.follow c.keys c.now (t (i + 1)) reference = .ok (t i)

/-- Nothing is left to follow but the proofs of the token, which lie deeper than all before. -/
structure At (w : Walk σ) (child : Token) (depth : Nat) : Prop where
  pending : w.pending = child.proofs.map (⟨child, ·, depth⟩)
  deeper : ∀ id last, w.lastDepth? id = some last → last < depth

theorem at_start (child : Token) (state : σ) : At (.start child state) child 1 := by
  constructor
  · rw [Walk.start, Walk.pending_push, List.append_nil]
  · intro id last known
    rw [Walk.start, Walk.lastDepth?_push] at known
    by_cases same : child.cid .standard = id
    · simp [Walk.lastDepth?, same] at known
      omega
    · simp [Walk.lastDepth?, same] at known

theorem turn_of_deep {w : Walk σ} {link : Link} {rest : List Link}
    (pending : w.pending = link :: rest) (deep : c.maxDepth < link.depth) :
    c.turn w = .done (.error (.tooDeep c.maxDepth), w) := by
  simp only [Context.turn, pending, if_pos deep]

/-- A fault of the first proof is the result, whatever the others are. -/
theorem walk_of_follow_error {e : ChainError} {child : Token} {reference : String}
    {others : List String} (answers : Answers c.resolve answer)
    (listed : child.proofs = reference :: others) (within : 1 ≤ c.maxDepth)
    (failed : answer.follow c.keys c.now child reference = .error e) (state : σ) :
    (c.walk child state).1 = .error e := by
  have pending := (at_start child state).pending
  rw [listed, List.map_cons] at pending
  have result := follow_answers answers ⟨child, reference, 1⟩
    { Walk.start child state with pending := others.map (⟨child, ·, 1⟩) }
  rw [failed] at result
  have turned : c.turn (.start child state) = .done (.error e, (c.follow ⟨child, reference, 1⟩
      { Walk.start child state with pending := others.map (⟨child, ·, 1⟩) }).2) := by
    simp only [Context.turn, pending, Nat.not_lt.mpr within, if_false]
    split
    next failed followed =>
      rw [followed] at result ⊢
      cases result
      rfl
    next followed =>
      rw [followed] at result
      cases result
  rw [Context.walk, Context.run_of_done turned]

/-- The token that is found was not met so far down, so that its own proofs come next. -/
theorem At.turn {w : Walk σ} {child proof : Token} {reference : String} {depth : Nat}
    (here : At w child depth) (answers : Answers c.resolve answer)
    (listed : child.proofs = [reference]) (within : depth ≤ c.maxDepth)
    (followed : answer.follow c.keys c.now child reference = .ok proof) :
    ∃ next, c.turn w = .next next ∧ At next proof (depth + 1) := by
  have pending : w.pending = [⟨child, reference, depth⟩] := by rw [here.pending, listed]; rfl
  have result := follow_answers answers ⟨child, reference, depth⟩ { w with pending := [] }
  have kept := c.pending_follow ⟨child, reference, depth⟩ { w with pending := [] }
  have same := c.lastDepth?_follow ⟨child, reference, depth⟩ { w with pending := [] }
  rw [followed] at result
  obtain ⟨after, done⟩ : ∃ after,
      c.follow ⟨child, reference, depth⟩ { w with pending := [] } = (.ok proof, after) :=
    ⟨_, Prod.ext result rfl⟩
  simp only [done] at kept same
  have known : ∀ id last, after.lastDepth? id = some last → last < depth :=
    fun id last found => here.deeper id last ((same id).symm.trans found)
  have uncovered : ¬after.covers (proof.cid .standard) depth = true := by
    intro covered
    obtain ⟨last, found, below⟩ := Walk.covers_iff.mp covered
    have := known _ last found
    omega
  refine ⟨_, Context.turn_of_follow pending within done, ?_⟩
  rw [Walk.enter, if_neg uncovered]
  constructor
  · rw [Walk.pending_push, Walk.pending_record, kept, List.append_nil]
  · intro id last found
    rw [Walk.lastDepth?_push, Walk.lastDepth?_expand] at found
    split at found
    · cases found
      exact Nat.lt_succ_self depth
    · exact Nat.lt_succ_of_lt (known id last found)

theorem run_of_follows (answers : Answers c.resolve answer) (follows : Follows answer c t n) (i : Nat)
    (inside : i ≤ n) {depth : Nat} {w : Walk σ} (here : At w (t i) depth)
    (within : depth ≤ c.maxDepth + 1) :
    (c.run w).1 =
      if i + depth ≤ c.maxDepth + 1 then .ok () else .error (.tooDeep c.maxDepth) := by
  -- What is left gets shorter as the depth grows, so that their sum decides from the start.
  induction i generalizing depth w with
  | zero =>
    have pending : w.pending = [] := by rw [here.pending, follows.first]; rfl
    rw [Context.run_of_done (Context.turn_of_nil pending), if_pos (by omega)]
  | succ i ih =>
    obtain ⟨reference, listed, followed⟩ := follows.next i inside
    by_cases deep : c.maxDepth < depth
    · have pending : w.pending = [⟨t (i + 1), reference, depth⟩] := by
        rw [here.pending, listed]; rfl
      rw [Context.run_of_done (turn_of_deep pending deep), if_neg (by omega)]
    · obtain ⟨next, turned, here⟩ := here.turn answers listed (Nat.not_lt.mp deep) followed
      have sum : i + (depth + 1) = i + 1 + depth := by omega
      rw [Context.run_of_next turned, ih (by omega) here (by omega), sum]

theorem walk_of_follows (answers : Answers c.resolve answer) (follows : Follows answer c t n)
    (state : σ) :
    (c.walk (t n) state).1 =
      if n ≤ c.maxDepth then .ok () else .error (.tooDeep c.maxDepth) := by
  rw [Context.walk, run_of_follows answers follows n (Nat.le_refl n) (at_start (t n) state)
    (Nat.le_add_left 1 _)]
  simp only [Nat.add_le_add_iff_right]

end

/-! ## Lines that were built -/

/-- Each token but the first has the one before as its proof, whose lifetime covers its own. -/
structure Line (n : Nat) (k : Nat → Keypair) (t : Nat → Token) : Prop where
  first : Handed (k 0) (k 1).did none (t 0)
  next : ∀ i < n, Handed (k (i + 1)) (k (i + 2)).did (some (t i)) (t (i + 1))
  covers : ∀ i < n, (t i).lifetimeEncompasses (t (i + 1)) = true

namespace Line

variable {n : Nat} {k : Nat → Keypair} {t : Nat → Token} {now : UInt64}

theorem handed (line : Line n k t) {i : Nat} (inside : i ≤ n) :
    ∃ before, Handed (k i) (k (i + 1)).did before (t i) := by
  cases i with
  | zero => exact ⟨none, line.first⟩
  | succ i => exact ⟨some (t i), line.next i inside⟩

theorem eq_of_encode (line : Line n k t) (verifies : ∀ i ≤ n, (k i).Verifies)
    (distinct : ∀ i ≤ n, ∀ j ≤ n, (t i).cid .standard = (t j).cid .standard →
      (t i).encode = (t j).encode) {i j : Nat} (inside : i ≤ n) (otherInside : j ≤ n)
    (same : (t i).encode = (t j).encode) : i = j := by
  -- The same text refers to the same proof, so that the tokens before have the same text too.
  induction i generalizing j with
  | zero =>
    cases j with
    | zero => rfl
    | succ j =>
      have later := line.next j otherInside
      have proofs := line.first.proofs_eq_of_encode later (verifies 0 inside)
        (verifies _ otherInside) same
      rw [line.first.proofs, later.proofs] at proofs
      cases proofs
  | succ i ih =>
    have here := line.next i inside
    cases j with
    | zero =>
      have proofs := here.proofs_eq_of_encode line.first (verifies _ inside)
        (verifies 0 otherInside) same
      rw [line.first.proofs, here.proofs] at proofs
      cases proofs
    | succ j =>
      have later := line.next j otherInside
      have proofs := here.proofs_eq_of_encode later (verifies _ inside) (verifies _ otherInside) same
      rw [here.proofs, later.proofs] at proofs
      have texts : ((t i).cid .standard).toString = ((t j).cid .standard).toString :=
        List.singleton_inj.mp proofs
      have ids := Cid.toString_injective (Token.length_digest_cid _ _)
        (Token.length_digest_cid _ _) texts
      rw [ih (by omega) (by omega) (distinct i (by omega) j (by omega) ids)]

theorem active (line : Line n k t) (active : (t n).Active now) {i : Nat} (inside : i ≤ n) :
    (t i).Active now := by
  induction inside using Nat.decreasingInduction with
  | self => exact active
  | of_succ i inside ih => exact ih.of_encompasses (line.covers i inside)

theorem follows {σ : Type} {resolve : ProofResolver σ} {maxDepth : Nat} {store : ProofStore}
    (line : Line n k t) (verifies : ∀ i ≤ n, (k i).Verifies) (active : (t n).Active now)
    (stored : ∀ i < n, store.get? ((t i).cid .standard) = some (t i)) :
    Follows store.resolve ⟨resolve, .ofDid, maxDepth, now⟩ t n := by
  constructor
  · exact line.first.proofs
  · intro i inside
    have handed := line.next i inside
    obtain ⟨_, before⟩ := line.handed (Nat.le_of_lt inside)
    obtain ⟨fresh, begun⟩ := line.active active (Nat.le_of_lt inside)
    refine ⟨((t i).cid .standard).toString, handed.proofs, follow_eq_ok_iff.mpr ⟨?_, ?_⟩⟩
    · refine .cid (Token.parse_toString_cid (t i) .standard) (HashAlgorithm.hasher?_cid _ _) ?_ rfl
      simp only [ProofStore.resolve, stored i inside]
    · exact ⟨before.recipient.trans handed.issuer.symm,
        before.checkSignature (verifies i (Nat.le_of_lt inside)), fresh, begun, line.covers i inside⟩

end Line

/-- Proofs along a line are found and good, however they were put into the store; so all that counts
is how many there are. -/
theorem validate_line (n : Nat) (k : Nat → Keypair) (t : Nat → Token) (v : Validator) (now : UInt64)
    (stored : List Token) (keys : v.keys = .ofDid) (verifies : ∀ i ≤ n, (k i).Verifies)
    (line : Line n k t) (active : (t n).Active now)
    (order : stored.Perm ((List.range n).map t))
    (distinct : ∀ i ≤ n, ∀ j ≤ n, (t i).cid .standard = (t j).cid .standard →
      (t i).encode = (t j).encode) :
    v.validate (ProofStore.ofList stored).resolve now (t n) =
      if n ≤ v.maxDepth then .ok () else .error (.chain (.tooDeep v.maxDepth)) := by
  have found : ∀ i < n, (ProofStore.ofList stored).get? ((t i).cid .standard) = some (t i) := by
    intro i inside
    apply ProofStore.get?_ofList
    · exact order.mem_iff.mpr (List.mem_map.mpr ⟨i, List.mem_range.mpr inside, rfl⟩)
    · intro other member same
      obtain ⟨j, before, rfl⟩ := List.mem_map.mp (order.mem_iff.mp member)
      have before := List.mem_range.mp before
      rw [line.eq_of_encode verifies distinct (Nat.le_of_lt before) (Nat.le_of_lt inside)
        (distinct j (by omega) i (by omega) same)]
  obtain ⟨_, handed⟩ := line.handed (Nat.le_refl n)
  have signed : (t n).checkSignature v.keys = .ok () :=
    keys ▸ handed.checkSignature (verifies n (Nat.le_refl n))
  have walked := walk_of_follows (c := ⟨.ofFunction (ProofStore.ofList stored).resolve, v.keys,
    v.maxDepth, now⟩) (answers_ofFunction _) (keys ▸ line.follows verifies active found) ()
  by_cases within : n ≤ v.maxDepth
  · rw [if_pos within] at walked ⊢
    exact Validator.validateWith_eq_ok_iff.mpr ⟨signed, active, walked⟩
  · rw [if_neg within] at walked ⊢
    exact Validator.validateWith_of_chain signed active.1 active.2 walked

namespace Line.Sample

def rootSettings : List Builder.Setting :=
  [.issuedBy Keypair.sample.signer, .audience Keypair.sample.did]

def token (settings : List Builder.Setting) (expiresAt : Option UInt64) (signature : Nat) : Token :=
  let t := Token.ofParts (Builder.header .rs256)
    ((Builder.ofSettings settings).payload Keypair.sample.did Keypair.sample.did expiresAt)
  { t with wire := { t.wire with signature := some (Bytes.ofNat 62 signature) } }

def root : Token := token rootSettings none
  0x5ac46e4f1681e2180878b9c837c6c1e406a1866c0830661ec06f9136f6dc93dc28b9b88207b3db3b1720411d945c5a4998f973450858ca8c8db2d770fe60

def rootId : Cid := ⟨Cid.raw, HashAlgorithm.standard.code, Bytes.ofNat 32
  0xf883ef2a4033439304587659ffd8d7b7a9aa6942779b15032d3874f5ff9dd08d⟩

theorem cid_root : root.cid .standard = rootId := by decide +kernel

def leafSettings : List Builder.Setting :=
  [.issuedBy Keypair.sample.signer, .audience Keypair.sample.did, .expiration 9,
    .proof rootId.toString]

def leaf : Token := token leafSettings (some 9)
  0x638c42d76f39e8540a14b921cde3cfa5aa190fdfb5538e8892d1dd03fb2ec32f1bed058c61b6832ea9a64eba4bdc7c6dd1cf8be99e1039c508090050e0ac

def tokens (i : Nat) : Token := if i = 0 then root else leaf

theorem line : Line 1 (fun _ => Keypair.sample) tokens := by
  have first : (Builder.ofSettings rootSettings).buildSigned 0 Keypair.sample.signer = .ok root :=
    eq_ok_of_toOption (by decide +kernel)
  have last : (Builder.ofSettings leafSettings).buildSigned 0 Keypair.sample.signer = .ok leaf :=
    eq_ok_of_toOption (by decide +kernel)
  constructor
  · exact ⟨⟨rootSettings, 0, first, rfl⟩, rfl⟩
  · intro i inside
    obtain rfl : i = 0 := by omega
    refine ⟨⟨leafSettings, 0, last, ?_⟩, rfl⟩
    change [Builder.Setting.proof rootId.toString] = [Builder.Setting.witnessedBy root]
    rw [Builder.Setting.witnessedBy, Builder.Setting.proofBy, cid_root]
  · intro i inside
    obtain rfl : i = 0 := by omega
    rfl

theorem distinct : ∀ i ≤ 1, ∀ j ≤ 1, (tokens i).cid .standard = (tokens j).cid .standard →
    (tokens i).encode = (tokens j).encode := by
  have differ : root.cid .standard ≠ leaf.cid .standard := by
    rw [cid_root]
    decide +kernel
  intro i inside j otherInside same
  obtain rfl | rfl : i = 0 ∨ i = 1 := by omega
  · obtain rfl | rfl : j = 0 ∨ j = 1 := by omega
    · rfl
    · exact absurd same differ
  · obtain rfl | rfl : j = 0 ∨ j = 1 := by omega
    · exact absurd same.symm differ
    · rfl

end Line.Sample

open Line.Sample in
theorem validate_line_of_two :
    Keypair.sample.Verifies ∧ Line 1 (fun _ => Keypair.sample) tokens ∧ (tokens 1).Active 5 ∧
      [root].Perm ((List.range 1).map tokens) ∧
      (∀ i ≤ 1, ∀ j ≤ 1, (tokens i).cid .standard = (tokens j).cid .standard →
        (tokens i).encode = (tokens j).encode) ∧
      ({} : Validator).validate (ProofStore.ofList [root]).resolve 5 leaf =
        if 1 ≤ ({} : Validator).maxDepth then .ok () else .error (.chain (.tooDeep 8)) :=
  ⟨Keypair.verifies_sample, line, ⟨rfl, rfl⟩, .refl _, distinct,
    validate_line 1 (fun _ => Keypair.sample) tokens {} 5 [root] rfl
      (fun _ _ => Keypair.verifies_sample) line ⟨rfl, rfl⟩ (.refl _) distinct⟩

end Delegation

end Ucan
