import Ucan.Keypair
import Ucan.Proofs.Encoding
import Ucan.Proofs.Except

/-!
The text of an identifier is read as the identifier again, if it was read at all or holds the key
of a key pair, and different identifiers have different texts.
-/

set_option autoImplicit false

namespace Ucan

namespace PublicKey

/-- Only an RSA key can be empty, and then it is not read back. -/
def Present (key : PublicKey) : Prop := ¬ (key.keyType = .rsa ∧ key.bytes = [])

variable {key : PublicKey}

theorem ofMultibase_multibase (present : key.Present) : ofMultibase key.multibase = .ok key := by
  have codec := KeyType.ofCodec?_codec key.keyType
  rw [Present] at present
  simp only [ofMultibase, multibase, Multibase.decode?_encodeBase58, ne_eq, not_true, if_false,
    codec, present, ofBytes?_bytes]

theorem present_of_ofMultibase {text : String} (read : ofMultibase text = .ok key) :
    key.Present := by
  unfold ofMultibase at read
  repeat' split at read
  all_goals cases read
  next kept _ found =>
    obtain ⟨rfl, rfl⟩ := of_ofBytes? found
    exact kept

theorem eq_of_ofMultibase {k : PublicKey} (read : ofMultibase k.multibase = .ok key) : key = k := by
  have codec := KeyType.ofCodec?_codec k.keyType
  simp only [ofMultibase, multibase, Multibase.decode?_encodeBase58, ne_eq, not_true, if_false,
    codec, ofBytes?_bytes] at read
  split at read <;> cases read
  rfl

theorem present_publicKey (k : Keypair) : k.publicKey.Present := by
  obtain ⟨algorithm, secret⟩ := k
  rintro ⟨rsa, empty⟩
  cases algorithm with
  | rs256 => cases empty
  | edDsa | es256 | es256k => cases rsa

end PublicKey

namespace Did

/-- The identifier is read from its own text. -/
def Readable (d : Did) : Prop := parse d.toString = .ok d

theorem splitColon?_append {before : List Char} (after : List Char) (plain : ':' ∉ before) :
    splitColon? (before ++ ':' :: after) = some (before, after) := by
  induction before with
  | nil => rfl
  | cons c before ih =>
    rw [List.mem_cons, not_or] at plain
    rw [List.cons_append, splitColon?, if_neg (Ne.symm plain.1), ih plain.2]
    rfl

theorem append_of_splitColon? {text before after : List Char}
    (split : splitColon? text = some (before, after)) : text = before ++ ':' :: after := by
  induction text generalizing before with
  | nil => cases split
  | cons c text ih =>
    rw [splitColon?] at split
    split at split
    next same =>
      cases split
      rw [same, List.nil_append]
    · obtain ⟨⟨first, rest⟩, inside, same⟩ := Option.map_eq_some_iff.mp split
      cases same
      rw [ih inside, List.cons_append]

theorem colon_not_mem_multibase (k : PublicKey) : ':' ∉ k.multibase.toList := by
  intro member
  have known := Multibase.mem_encodeBase58 member
  revert known
  decide

theorem readable_key {k : PublicKey} (present : k.Present) : (key k).Readable := by
  have text : (key k).toString.toList =
      'd' :: 'i' :: 'd' :: ':' :: (['k', 'e', 'y'] ++ ':' :: k.multibase.toList) := by
    simp [toString]
  have method := splitColon?_append k.multibase.toList (show ':' ∉ ['k', 'e', 'y'] by decide)
  have nonempty : k.multibase.toList ≠ [] := by simp [PublicKey.multibase, Multibase.encodeBase58]
  have ending : k.multibase.toList.getLast? ≠ some ':' := fun last =>
    colon_not_mem_multibase k (List.mem_of_getLast? last)
  have lowercase : ['k', 'e', 'y'].all isMethodChar = true := by decide
  rw [Readable, parse, text]
  simp only [parseChars, method]
  simp [nonempty, ending, lowercase, PublicKey.ofMultibase_multibase present, Except.map]

theorem readable_of_parse {text : String} {d : Did} (read : parse text = .ok d) : d.Readable := by
  have whole := read
  unfold parse parseChars at read
  split at read
  next rest chars =>
    split at read
    · cases read
    next method identifier found =>
      -- Two errors, a key, and an identifier of any other method.
      repeat' split at read
      · cases read
      · cases read
      · obtain ⟨k, key, same⟩ := map_eq_ok.mp read
        cases same
        exact readable_key (PublicKey.present_of_ofMultibase key)
      · cases read
        have same : (other (String.ofList method) (String.ofList identifier)).toString = text := by
          apply String.toList_inj.mp
          rw [chars, append_of_splitColon? found]
          simp [toString]
        rw [Readable, same, whole]
  · cases read

theorem readable_did (k : Keypair) : k.did.Readable :=
  readable_key (PublicKey.present_publicKey k)

end Did

/-! ## Different identifiers -/

theorem PublicKey.multibase_injective {k l : PublicKey} (same : k.multibase = l.multibase) :
    k = l := by
  have bytes := congrArg Multibase.decode? same
  simp only [multibase, Multibase.decode?_encodeBase58, Option.some.injEq, Prod.mk.injEq, true_and,
    List.cons.injEq] at bytes
  obtain ⟨first, second, rest⟩ := bytes
  have codec : k.keyType.codec = l.keyType.codec := Prod.ext first second
  have type := congrArg KeyType.ofCodec? codec
  rw [KeyType.ofCodec?_codec, KeyType.ofCodec?_codec, Option.some.injEq] at type
  have key := ofBytes?_bytes k
  rw [type, rest, ofBytes?_bytes l] at key
  exact (Option.some.inj key).symm

namespace Did

/-- Of a method that is another than `key`, and has no colon in it. -/
def Regular : Did → Prop
  | key _ => True
  | other method _ => method ≠ "key" ∧ ':' ∉ method.toList

def split? (d : Did) : Option (List Char × List Char) :=
  splitColon? (d.toString.toList.drop 4)

theorem split?_key (k : PublicKey) : (key k).split? = some ("key".toList, k.multibase.toList) := by
  have text : (key k).toString.toList.drop 4 = ['k', 'e', 'y'] ++ ':' :: k.multibase.toList := by
    simp [toString]
  rw [split?, text]
  exact splitColon?_append _ (by decide)

theorem split?_other {method identifier : String} (plain : ':' ∉ method.toList) :
    (other method identifier).split? = some (method.toList, identifier.toList) := by
  have text : (other method identifier).toString.toList.drop 4 =
      method.toList ++ ':' :: identifier.toList := by
    simp [toString]
  rw [split?, text]
  exact splitColon?_append _ plain

theorem Regular.eq_of_toString {d e : Did} (regular : d.Regular) (otherRegular : e.Regular)
    (same : d.toString = e.toString) : d = e := by
  have split : d.split? = e.split? := by rw [split?, same, split?]
  cases d with
  | key k =>
    cases e with
    | key l =>
      rw [split?_key, split?_key, Option.some.injEq, Prod.mk.injEq] at split
      rw [PublicKey.multibase_injective (String.toList_inj.mp split.2)]
    | other method identifier =>
      rw [split?_key, split?_other otherRegular.2, Option.some.injEq, Prod.mk.injEq,
        String.toList_inj] at split
      exact absurd split.1.symm otherRegular.1
  | other method identifier =>
    cases e with
    | key l =>
      rw [split?_key, split?_other regular.2, Option.some.injEq, Prod.mk.injEq,
        String.toList_inj] at split
      exact absurd split.1 regular.1
    | other otherMethod otherIdentifier =>
      rw [split?_other regular.2, split?_other otherRegular.2, Option.some.injEq, Prod.mk.injEq,
        String.toList_inj, String.toList_inj] at split
      rw [split.1, split.2]

theorem regular_of_parse {text : String} {d : Did} (read : parse text = .ok d) : d.Regular := by
  unfold parse parseChars at read
  split at read
  · split at read
    · cases read
    next method identifier found =>
      split at read
      · cases read
      next lowercase =>
        split at read
        · cases read
        split at read
        next =>
          obtain ⟨k, -, rfl⟩ := map_eq_ok.mp read
          trivial
        next other =>
          cases read
          rw [not_or, Decidable.not_not] at lowercase
          constructor
          · intro same
            have chars := congrArg String.toList same
            rw [String.toList_ofList] at chars
            exact other chars
          · rw [String.toList_ofList]
            intro colon
            exact absurd (List.all_eq_true.mp lowercase.2 ':' colon) (by decide)
  · cases read

theorem of_parse {text : String} {method identifier : List Char} {d : Did}
    (chars : text.toList = 'd' :: 'i' :: 'd' :: ':' :: (method ++ ':' :: identifier))
    (plain : ':' ∉ method) (read : parse text = .ok d) :
    (method = "key".toList ∧
        ∃ k, PublicKey.ofMultibase (String.ofList identifier) = .ok k ∧ d = key k) ∨
      (method ≠ "key".toList ∧ d = other (String.ofList method) (String.ofList identifier)) := by
  rw [parse, chars, parseChars, splitColon?_append identifier plain] at read
  dsimp only at read
  split at read
  · cases read
  split at read
  · cases read
  split at read
  next same =>
    obtain ⟨k, found, rfl⟩ := map_eq_ok.mp read
    exact .inl ⟨same, k, found, rfl⟩
  next differs =>
    cases read
    exact .inr ⟨differs, rfl⟩

theorem Regular.eq_of_parse {d e : Did} (regular : d.Regular) (read : parse d.toString = .ok e) :
    e = d := by
  cases d with
  | key k =>
    have text : (key k).toString.toList =
        'd' :: 'i' :: 'd' :: ':' :: ("key".toList ++ ':' :: k.multibase.toList) := by
      simp [toString]
    rcases of_parse text (by decide) read with ⟨-, l, found, rfl⟩ | ⟨differs, -⟩
    · rw [String.ofList_toList] at found
      rw [PublicKey.eq_of_ofMultibase found]
    · exact absurd rfl differs
  | other method identifier =>
    have text : (other method identifier).toString.toList =
        'd' :: 'i' :: 'd' :: ':' :: (method.toList ++ ':' :: identifier.toList) := by
      simp [toString]
    rcases of_parse text regular.2 read with ⟨same, -⟩ | ⟨-, rfl⟩
    · exact absurd (String.toList_inj.mp same) regular.1
    · rw [String.ofList_toList, String.ofList_toList]

end Did

end Ucan
