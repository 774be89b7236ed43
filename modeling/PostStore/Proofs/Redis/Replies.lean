import PostStore.Proofs.Document
import PostStore.Proofs.Numerals
import PostStore.Proofs.Texts
import PostStore.Redis.Store
/-!
# Replies are understood

The document of a post is text, although it is written byte by byte: what is escaped is a character
of one byte, and so is every character that is written for it.  So a reply that holds a document is
understood as that document, and a reply to a scan as the cursor and the fields that it holds.
-/

namespace PostStore

namespace Json

open Text

/-- A byte below 128 is written with bytes below 128, and any other byte stands for itself. -/
theorem writeByte_cases (b : UInt8) :
    (b < 128 ∧ ∀ b' ∈ writeByte b, b' < 128) ∨ (¬ b < 128 ∧ writeByte b = [b]) := by
  have all : ∀ n, n < 256 → (UInt8.ofNat n < 128 ∧ ∀ b' ∈ writeByte (UInt8.ofNat n), b' < 128) ∨
      (¬ UInt8.ofNat n < 128 ∧ writeByte (UInt8.ofNat n) = [UInt8.ofNat n]) := by decide +kernel
  have this := all b.toNat b.toNat_lt
  rwa [UInt8.ofNat_toNat] at this

/-- The written form of a text is text. -/
theorem isText_writeText (text : String) : IsText (writeText text) := by
  have character : ∀ c, IsText ((String.utf8EncodeChar c).flatMap writeByte) := by
    intro c
    rcases utf8EncodeChar_cases c with ⟨b, small, one⟩ | high
    · rw [one, List.flatMap_singleton]
      rcases writeByte_cases b with ⟨_, written⟩ | ⟨notSmall, _⟩
      · exact isText_of_small written
      · exact absurd small notSmall
    · have same : (String.utf8EncodeChar c).map writeByte =
          (String.utf8EncodeChar c).map fun b => [b] :=
        List.map_congr_left fun b member =>
          (writeByte_cases b).elim (fun small => absurd small.1 (high b member)) And.right
      rw [List.flatMap_def, same, ← List.flatMap_def, List.flatMap_singleton']
      refine ⟨String.ofList [c], ?_⟩
      rw [utf8_ofList, List.flatMap_singleton]
  have quote : IsText [34] := ⟨"\"", by decide⟩
  have inside : IsText ((utf8 text).flatMap writeByte) := by
    rw [utf8_eq_flatMap, List.flatMap_assoc]
    exact isText_flatMap fun c _ => character c
  exact quote.append (inside.append quote)

/-- The written form of a structure is text when those of its members are. -/
theorem isText_writeStruct {members : List Member}
    (each : ∀ m ∈ members, ∀ value, IsText (m.write value)) (values : Values members) :
    IsText (writeStruct members values) := by
  have comma : IsText [44] := ⟨",", by decide⟩
  have pieces : ∀ piece ∈ writeMembers members values, IsText piece := by
    induction members with
    | nil => exact fun _ member => nomatch member
    | cons m ms ih =>
      obtain ⟨value, values⟩ := values
      intro piece member
      rw [writeMembers] at member
      rcases List.mem_cons.1 member with rfl | later
      · have colon : IsText [58] := ⟨":", by decide⟩
        exact (isText_writeText m.name).append (colon.append (each m List.mem_cons_self value))
      · exact ih (fun m member => each m (List.mem_cons_of_mem _ member)) values piece later
  have inside : IsText ((writeMembers members values).intersperse [44]).flatten := by
    cases all : writeMembers members values with
    | nil => exact isText_nil
    | cons first others =>
      rw [all] at pieces
      rw [flatten_intersperse]
      refine (pieces first List.mem_cons_self).append (isText_flatMap fun piece member => ?_)
      exact comma.append (pieces piece (List.mem_cons_of_mem first member))
  have opening : IsText [123] := ⟨"\x7b", by decide⟩
  have closing : IsText [125] := ⟨"\x7d", by decide⟩
  exact (opening.append inside).append closing

end Json

/-- **The document of a post is text.** -/
theorem Post.isText_toDocument (post : Post) : Text.IsText post.toDocument := by
  refine Json.isText_writeStruct ?_ post.toValues
  intro m member
  simp only [members, List.mem_cons, List.not_mem_nil, or_false] at member
  rcases member with rfl | rfl | rfl | rfl | rfl
  · exact Json.isText_writeText
  · exact Json.isText_writeText
  · exact Json.isText_writeText
  · exact fun t => Json.isText_writeText t.toText
  · exact fun t => Json.isText_writeText t.toText

/-! ## Replies -/

namespace Redis

/-- What is read of the document of a regular post is decoded to the post. -/
theorem decode_document {post : Post} (regular : post.Regular) {text : String}
    (document : Text.utf8 text = post.toDocument) :
    decode text = .ok post := by
  simp only [decode, document, Post.ofDocument_toDocument regular]

/-- A reply that is the document of a regular post is understood as it. -/
theorem toText?_document {post : Post} (regular : post.Regular) :
    ∃ text, (Reply.bulk post.toDocument).toText? = .ok (some text) ∧ decode text = .ok post := by
  obtain ⟨text, document⟩ := post.isText_toDocument
  refine ⟨text, ?_, decode_document regular document⟩
  simp only [← document, Reply.toText?, Reply.toText, Text.ofUtf8?_utf8]
  rfl

/-- Fields with the bytes of their values. -/
def inBytes (fields : List (String × String)) : Fields :=
  fields.map fun field => (field.1, Text.utf8 field.2)

/-- The reply that holds a batch of fields with their values, and the cursor of the next batch. -/
def batchReply (cursor : Nat) (batch : Fields) : Reply :=
  .array [.bulk (Text.utf8 (toString cursor)),
    .array (batch.flatMap fun field => [.bulk (Text.utf8 field.1), .bulk field.2])]

/-- There is no error in a batch. -/
theorem checked_batchReply (cursor : Nat) (batch : Fields) :
    (batchReply cursor batch).checked = .ok (batchReply cursor batch) := by
  have calm : firstProblem? (batch.flatMap fun field =>
      [.bulk (Text.utf8 field.1), .bulk field.2]) = none := by
    induction batch with
    | nil => rfl
    | cons field batch ih =>
      simp only [List.flatMap_cons, List.cons_append, List.nil_append, firstProblem?,
        Reply.problem?, Option.none_or, ih]
  have none : (batchReply cursor batch).problem? = none := by
    simp only [batchReply, Reply.problem?, firstProblem?, calm, Option.or_none]
  rw [Reply.checked, none]

/-- The texts of the fields of a batch and of their values. -/
theorem toTexts_batch (texts : List (String × String)) :
    (Reply.array (texts.flatMap fun field =>
      [.bulk (Text.utf8 field.1), .bulk (Text.utf8 field.2)])).toTexts =
        .ok (texts.flatMap fun field => [field.1, field.2]) := by
  rw [Reply.toTexts]
  induction texts with
  | nil => rfl
  | cons field texts ih =>
    simp only [List.flatMap_cons, List.cons_append, List.nil_append, List.mapM_cons, Reply.toText,
      Text.ofUtf8?_utf8, ih]
    rfl

/-- **A batch of texts is understood as its cursor and its texts.** -/
theorem toScan_batchReply {cursor : Nat} (fits : cursor < Nat.pow 2 64)
    (texts : List (String × String)) :
    (batchReply cursor (inBytes texts)).toScan =
      .ok (cursor, texts.flatMap fun field => [field.1, field.2]) := by
  have number : (Reply.bulk (Text.utf8 (toString cursor))).toUnsigned 64 = .ok cursor := by
    simp only [Reply.toUnsigned, Text.ofUtf8?_utf8,
      Text.readUnsigned_toString (Nat.le_sub_one_of_lt fits)]
  have items := toTexts_batch texts
  simp only [batchReply, inBytes, Reply.toScan, number, List.flatMap_map, items]
  rfl

end Redis

end PostStore
