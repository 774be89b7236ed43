import Mathlib.Data.Set.Function
import PostStore.Lmdb.Store
import PostStore.Proofs.DocumentGrammar
import PostStore.Proofs.Healthy
import PostStore.Proofs.Lmdb.Entries
/-!
# What the document file holds

As long as no two of the names in use have the same digest, the key of an entry tells whose post it
is and under what identifier, and filing and dropping under the key of a post change what the file
holds under that user and identifier and nothing else.
-/

namespace PostStore.Lmdb

/-! ## Keys -/

theorem length_bigEndian (count n : Nat) : (Sha256.bigEndian count n).length = count := by
  induction count generalizing n with
  | zero => rfl
  | succ count ih => simp [Sha256.bigEndian, ih]

/-- A digest has 32 bytes. -/
theorem length_digest (message : Bytes) : (Sha256.digest message).length = 32 := by
  simp [Sha256.digest, Sha256.State.toBytes, length_bigEndian]

/-- No two of the names have the same digest. -/
def Distinct (names : Set String) : Prop :=
  Set.InjOn (fun name => Sha256.digest (Text.utf8 name)) names

theorem isPrefix_userKey (user id : String) : userKey user <+: postKey user id :=
  List.prefix_append _ _

/-- The user and the identifier can be told from a key. -/
theorem Distinct.postKey_inj {names : Set String} (distinct : Distinct names)
    {user id user' id' : String} (hu : user ∈ names) (hi : id ∈ names) (hu' : user' ∈ names)
    (hi' : id' ∈ names) (same : postKey user id = postKey user' id') :
    user = user' ∧ id = id' := by
  obtain ⟨users, ids⟩ :=
    List.append_inj same (by rw [userKey, userKey, length_digest, length_digest])
  exact ⟨distinct hu hu' users, distinct hi hi' ids⟩

/-- The user can be told from the start of a key. -/
theorem Distinct.user_of_isPrefix {names : Set String} (distinct : Distinct names)
    {user user' id : String} (hu : user ∈ names) (hu' : user' ∈ names)
    (start : userKey user <+: postKey user' id) : user' = user := by
  have same : userKey user = userKey user' :=
    (List.prefix_of_prefix_length_le start (isPrefix_userKey user' id)
      (by rw [userKey, userKey, length_digest, length_digest])).eq_of_length
        (by rw [userKey, userKey, length_digest, length_digest])
  exact (distinct hu hu' same).symm

/-! ## Documents -/

/-- A stored document of a regular post is decoded to the post. -/
theorem decode_toDocument {post : Post} (regular : post.Regular) :
    decode post.toDocument = .ok post := by
  rw [decode, Post.ofDocument_toDocument regular]

theorem regular_of_decode {document : Bytes} {post : Post} (decoded : decode document = .ok post) :
    post.Regular := by
  unfold decode at decoded
  split at decoded
  · rename_i read
    cases decoded
    exact Post.regular_of_ofDocument read
  · cases decoded

/-- The post under a user and an identifier: the one in the document under their key, if that is
what the document says. -/
def Entries.held (entries : Entries) : Catalogue := fun user id =>
  ((entries.get? (postKey user id)).bind fun document => (decode document).toOption).filter
    (Coordinator.owns user id)

/-- The keys ascend, and under each of them there is a document of the post that it is the key of,
with names among those given. -/
structure Entries.Stocked (names : Set String) (entries : Entries) : Prop where
  sorted : entries.Sorted
  filed : ∀ entry ∈ entries, ∃ post, decode entry.2 = .ok post ∧
    entry.1 = postKey post.user post.id ∧ post.user ∈ names ∧ post.id ∈ names

namespace Entries

theorem toOption_eq_some {ε α : Type} {result : Except ε α} {value : α} :
    result.toOption = some value ↔ result = .ok value := by
  cases result <;> simp [Except.toOption]

/-- What is held is what some document under the right key says. -/
theorem held_eq_some {entries : Entries} (sorted : entries.Sorted) {user id : String}
    {post : Post} :
    entries.held user id = some post ↔
      ∃ document, (postKey user id, document) ∈ entries ∧ decode document = .ok post ∧
        post.user = user ∧ post.id = id := by
  rw [held, Option.filter_eq_some_iff, Option.bind_eq_some_iff, Coordinator.owns_iff]
  constructor
  · rintro ⟨⟨document, found, decoded⟩, own⟩
    exact ⟨document, sorted.get?_eq_some.1 found, toOption_eq_some.1 decoded, own⟩
  · rintro ⟨document, member, decoded, own⟩
    exact ⟨⟨document, sorted.get?_eq_some.2 member, toOption_eq_some.2 decoded⟩, own⟩

/-- What is held is regular, since it is read from documents. -/
theorem regular_held (entries : Entries) : entries.held.Regular := by
  intro user id post found
  obtain ⟨_, _, decoded⟩ := Option.bind_eq_some_iff.1 (Option.filter_eq_some_iff.1 found).1
  exact regular_of_decode (toOption_eq_some.1 decoded)

namespace Stocked

variable {names : Set String} {entries : Entries}

theorem nil : Stocked names [] := ⟨List.Pairwise.nil, fun _ member => nomatch member⟩

/-- Under the key of names in use there is a document exactly when something is held, and it says
what is held. -/
theorem get?_postKey (stocked : Stocked names entries) (distinct : Distinct names)
    {user id : String} (hu : user ∈ names) (hi : id ∈ names) :
    (entries.get? (postKey user id)).map decode = (entries.held user id).map .ok := by
  cases found : entries.get? (postKey user id) with
  | none => simp [held, found]
  | some document =>
    obtain ⟨post, decoded, key, hu', hi'⟩ := stocked.filed _ (stocked.sorted.get?_eq_some.1 found)
    obtain ⟨rfl, rfl⟩ := distinct.postKey_inj hu hi hu' hi' key
    have own : Coordinator.owns post.user post.id post = true := Coordinator.owns_iff.2 ⟨rfl, rfl⟩
    simp [held, found, decoded, Except.toOption, Option.filter, own]

/-- The document of another post is not under the key of names in use. -/
theorem postKey_ne (stocked : Stocked names entries) (distinct : Distinct names)
    {user id : String} (hu : user ∈ names) (hi : id ∈ names) {document : Bytes} {post : Post}
    (member : (postKey post.user post.id, document) ∈ entries)
    (decoded : decode document = .ok post) (other : ¬ (post.user = user ∧ post.id = id)) :
    postKey post.user post.id ≠ postKey user id := by
  obtain ⟨_, decoded', _, hu', hi'⟩ := stocked.filed _ member
  rw [decoded] at decoded'
  cases decoded'
  exact fun same => other (distinct.postKey_inj hu' hi' hu hi same)

/-- Filing the document of a post files the post. -/
theorem insert (stocked : Stocked names entries) (distinct : Distinct names) {post : Post}
    (regular : post.Regular) (hu : post.user ∈ names) (hi : post.id ∈ names) :
    Stocked names (entries.insert (postKey post.user post.id) post.toDocument) ∧
      (entries.insert (postKey post.user post.id) post.toDocument).held =
        entries.held.file post := by
  have sorted := stocked.sorted.insert (postKey post.user post.id) post.toDocument
  refine ⟨⟨sorted, ?_⟩, ?_⟩
  · intro entry member
    rcases (mem_insert stocked.sorted _ _ _).1 member with rfl | ⟨old, _⟩
    · exact ⟨post, decode_toDocument regular, rfl, hu, hi⟩
    · exact stocked.filed entry old
  · funext user id
    apply Option.ext
    intro found
    rw [held_eq_some sorted, Catalogue.file]
    constructor
    · rintro ⟨document, member, decoded, rfl, rfl⟩
      rcases (mem_insert stocked.sorted _ _ _).1 member with here | ⟨old, other⟩
      · obtain ⟨_, rfl⟩ := Prod.mk.inj here
        rw [decode_toDocument regular] at decoded
        cases decoded
        rw [if_pos ⟨rfl, rfl⟩]
      · have elsewhere : ¬ (found.user = post.user ∧ found.id = post.id) := fun same =>
          other (by rw [same.1, same.2])
        rw [if_neg elsewhere]
        exact (held_eq_some stocked.sorted).2 ⟨document, old, decoded, rfl, rfl⟩
    · intro given
      split at given
      · rename_i same
        obtain ⟨rfl, rfl⟩ := same
        cases given
        exact ⟨post.toDocument, (mem_insert stocked.sorted _ _ _).2 (.inl rfl),
          decode_toDocument regular, rfl, rfl⟩
      · rename_i elsewhere
        obtain ⟨document, old, decoded, rfl, rfl⟩ := (held_eq_some stocked.sorted).1 given
        have other := stocked.postKey_ne distinct hu hi old decoded elsewhere
        exact ⟨document, (mem_insert stocked.sorted _ _ _).2 (.inr ⟨old, other⟩), decoded, rfl, rfl⟩

/-- Dropping the entry under the key of a post drops the post. -/
theorem erase (stocked : Stocked names entries) (distinct : Distinct names) {user id : String}
    (hu : user ∈ names) (hi : id ∈ names) :
    Stocked names (entries.erase (postKey user id)) ∧
      (entries.erase (postKey user id)).held = entries.held.drop user id := by
  have sorted := stocked.sorted.erase (postKey user id)
  refine ⟨⟨sorted, fun entry member => stocked.filed entry ((mem_erase _ _ _).1 member).1⟩, ?_⟩
  funext user' id'
  apply Option.ext
  intro found
  rw [held_eq_some sorted, Catalogue.drop]
  constructor
  · rintro ⟨document, member, decoded, rfl, rfl⟩
    obtain ⟨old, other⟩ := (mem_erase _ _ _).1 member
    have elsewhere : ¬ (found.user = user ∧ found.id = id) := fun same =>
      other (by rw [same.1, same.2])
    rw [if_neg elsewhere]
    exact (held_eq_some stocked.sorted).2 ⟨document, old, decoded, rfl, rfl⟩
  · intro given
    split at given
    · cases given
    · rename_i elsewhere
      obtain ⟨document, old, decoded, rfl, rfl⟩ := (held_eq_some stocked.sorted).1 given
      have other := stocked.postKey_ne distinct hu hi old decoded elsewhere
      exact ⟨document, (mem_erase _ _ _).2 ⟨old, other⟩, decoded, rfl, rfl⟩

end Stocked

end Entries

end PostStore.Lmdb
