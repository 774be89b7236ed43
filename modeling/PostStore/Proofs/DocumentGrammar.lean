import PostStore.Proofs.Json.Remainders
import PostStore.Proofs.Json.Structures
/-!
# Which documents are posts

The documents of a post are described by the grammar, apart from how they are read: an object in
which each of the five names stands once, compared as the bytes that it stands for, with the values
of the post behind them and anything behind other names; or a list of the five values in order.
Bytes that are read as a post are such a document of it.  Conversely a text that is such a document,
and whose escapes all denote characters, is read as the post.
-/

namespace PostStore

open Json Grammar Text

/-! ## Members one by one -/

namespace Json

/-- Behind a member the object goes on with a comma or the closing bracket. -/
theorem Grammar.Members.stops {behind : Bytes → Bytes → Bytes → Prop} {found : List Bytes}
    {t t' : Bytes} (object : Members behind false found t t') : Stops t := by
  cases object with
  | close space => exact space.stops (by decide)
  | member opens =>
    cases opens with
    | next comma => exact comma.stops (by decide)

/-- What stands behind each name may be replaced by what follows from it there. -/
theorem Grammar.Members.imp {behind behind' : Bytes → Bytes → Bytes → Prop}
    (weaker : ∀ {name t t'}, Stops t' → behind name t t' → behind' name t t') {first : Bool}
    {found : List Bytes} {t t' : Bytes} (object : Members behind first found t t') :
    Members behind' first found t t' := by
  induction object with
  | close space => exact .close space
  | member opens quoted colon stands rest ih =>
    exact .member opens quoted colon (weaker rest.stops stands) ih

/-- What is found in an object stands there. -/
theorem Grammar.Members.behind_of_mem {behind : Bytes → Bytes → Bytes → Prop} {first : Bool}
    {found : List Bytes} {t t' : Bytes} (object : Members behind first found t t') :
    ∀ name ∈ found, ∃ t1 t2, behind name t1 t2 := by
  induction object with
  | close => exact fun _ member => nomatch member
  | member _ _ _ stands _ ih => exact List.forall_mem_cons.2 ⟨⟨_, _, stands⟩, ih⟩

/-- Each element of a list stands there. -/
theorem Grammar.Listed.stands_of_mem {first : Bool} {elements : List (Bytes → Bytes → Prop)}
    {t t' : Bytes} (listed : Listed first elements t t') :
    ∀ element ∈ elements, ∃ t1 t2, element t1 t2 := by
  induction listed with
  | close => exact fun _ member => nomatch member
  | first stands _ ih => exact List.forall_mem_cons.2 ⟨⟨_, _, stands⟩, ih⟩
  | next _ stands _ ih => exact List.forall_mem_cons.2 ⟨⟨_, _, stands⟩, ih⟩

section Written

variable {behind : Bytes → Bytes → Bytes → Prop}

/-- A written member is one, wherever a name may stand. -/
theorem member_written {first : Bool} {piece : String × Bytes} {found : List Bytes}
    {t rest t' : Bytes} (opens : ∀ t1, writePiece piece ++ rest = 34 :: t1 → NameAt first t t1)
    (stands : behind (utf8 piece.1) (piece.2 ++ rest) rest)
    (others : Members behind false found rest t') :
    Members behind first (utf8 piece.1 :: found) t t' := by
  have quoted := readString_eq_ok.1 (readString_writeText piece.1 (58 :: (piece.2 ++ rest)))
  exact .member (opens _ (writePiece_append piece rest)) quoted .none stands others

/-- Written members with a comma before each are members, up to the closing bracket. -/
theorem members_flatMap (left : List (String × Bytes))
    (stands : ∀ piece ∈ left, ∀ rest, behind (utf8 piece.1) (piece.2 ++ rest) rest)
    (rest : Bytes) :
    Members behind false (left.map fun piece => utf8 piece.1)
      (left.flatMap (fun piece => 44 :: writePiece piece) ++ 125 :: rest) rest := by
  induction left with
  | nil => exact .close .none
  | cons piece left ih =>
    rw [List.map_cons, List.flatMap_cons, List.append_assoc, List.cons_append]
    refine member_written ?_ (stands piece List.mem_cons_self _)
      (ih fun other member => stands other (List.mem_cons_of_mem piece member))
    intro t1 eq
    rw [eq]
    exact .next .none .none

/-- What stands between the brackets of a written structure is its members. -/
theorem members_intersperse (all : List (String × Bytes))
    (stands : ∀ piece ∈ all, ∀ rest, behind (utf8 piece.1) (piece.2 ++ rest) rest)
    (rest : Bytes) :
    Members behind true (all.map fun piece => utf8 piece.1)
      (((all.map writePiece).intersperse [44]).flatten ++ 125 :: rest) rest := by
  cases all with
  | nil => exact .close .none
  | cons piece left =>
    have others : (left.map writePiece).flatMap (([44] : Bytes) ++ ·) =
        left.flatMap fun piece => 44 :: writePiece piece := by
      rw [List.flatMap_map]
      rfl
    rw [List.map_cons, List.map_cons, flatten_intersperse, others, List.append_assoc]
    refine member_written ?_ (stands piece List.mem_cons_self _)
      (members_flatMap left (fun other member => stands other (List.mem_cons_of_mem piece member))
        rest)
    intro t1 eq
    rw [eq]
    exact .first .none

end Written

end Json

namespace Post

/-! ## The documents of a post -/

/-- What stands behind the colon of a member in a document of the post: a value of the post behind
each of the five names, and any value behind another name. -/
def Behind (string : Bytes → Bytes → Prop) (post : Post) (name : Bytes) : Bytes → Bytes → Prop :=
  if name = utf8 "userID" then TextAt post.user
  else if name = utf8 "postID" then TextAt post.id
  else if name = utf8 "data" then TextAt post.data
  else if name = utf8 "createdAt" then InstantAt post.createdAt
  else if name = utf8 "updatedAt" then InstantAt post.updatedAt
  else Derives string .value

/-- The documents of a post.  The strings in the values of other members are those that `string`
describes; such values may nest to any depth, and their names may be repeated. -/
inductive Document (string : Bytes → Bytes → Prop) (post : Post) (document : Bytes) : Prop
  | object {found t t'} : Space document (123 :: t) →
      Members (Behind string post) true found t t' →
      (∀ name ∈ ["userID", "postID", "data", "createdAt", "updatedAt"],
        found.count (utf8 name) = 1) →
      Space t' [] → Document string post document
  | list {t t'} : Space document (91 :: t) →
      Listed true [TextAt post.user, TextAt post.id, TextAt post.data, InstantAt post.createdAt,
        InstantAt post.updatedAt] t t' →
      Space t' [] → Document string post document

variable {post : Post} {name t t' : Bytes}

/-- The members of the structure stand as they do in a document of the post. -/
theorem stands_iff_behind (stops : Stops t') :
    Stands members post.toValues name t t' ↔ Behind Passed post name t t' := by
  show (if utf8 "userID" = name then readText t = .ok (post.user, t')
    else if utf8 "postID" = name then readText t = .ok (post.id, t')
    else if utf8 "data" = name then readText t = .ok (post.data, t')
    else if utf8 "createdAt" = name then readInstant t = .ok (post.createdAt, t')
    else if utf8 "updatedAt" = name then readInstant t = .ok (post.updatedAt, t')
    else skipValue t = .ok t') ↔ _
  simp only [readText_eq_ok, readInstant_eq_ok, eq_comm (b := name), Behind]
  split_ifs
  · rfl
  · rfl
  · rfl
  · rfl
  · rfl
  · exact ⟨value_of_skipValue, fun value => skipValue_eq_ok value stops⟩

theorem elements_eq (post : Post) :
    elements members post.toValues =
      [TextAt post.user, TextAt post.id, TextAt post.data, InstantAt post.createdAt,
        InstantAt post.updatedAt] := by
  have texts : ∀ text, (fun t t' => readText t = .ok (text, t')) = TextAt text := by
    intro text
    funext t t'
    exact propext readText_eq_ok
  have instants : ∀ time, (fun t t' => readInstant t = .ok (time, t')) = InstantAt time := by
    intro time
    funext t t'
    exact propext readInstant_eq_ok
  rw [← texts, ← texts, ← texts, ← instants, ← instants]
  rfl

theorem names_members :
    names members = ["userID", "postID", "data", "createdAt", "updatedAt"].map utf8 := rfl

theorem distinct_members : (names members).Nodup := by
  rw [names_members]
  exact List.Nodup.map (fun _ _ => utf8_inj) (by decide)

theorem tame_members : ∀ m ∈ members, Tame m.read := by
  have texts : Tame readText := tame_readQuoted _ _
  have instants : Tame readInstant := tame_readQuoted _ _
  intro m member
  simp only [members, List.mem_cons, List.not_mem_nil, or_false] at member
  rcases member with rfl | rfl | rfl | rfl | rfl
  · exact texts
  · exact texts
  · exact texts
  · exact instants
  · exact instants

/-! ## Reading them -/

/-- A document is read as a post when its structure is and only white space is left. -/
theorem ofDocument_eq_ok {document : Bytes} :
    ofDocument document = .ok post ↔
      ∃ t', readStruct "Record" members document = .ok (post.toValues, t') ∧ Space t' [] := by
  constructor
  · intro read
    unfold ofDocument readDocument Post.read at read
    split at read
    · cases read
    · rename_i whole
      split at whole
      · cases whole
      · rename_i struct
        cases whole
        split at read
        · rename_i eq
          cases read
          exact ⟨_, struct, space_of_skipSpace eq⟩
        · cases read
  · rintro ⟨t', struct, space⟩
    have ended : skipSpace t' = [] := space.skipSpace_eq
    simp only [ofDocument, readDocument, Post.read, struct, ended]
    rfl

/-- What is read as a post is a document of it. -/
theorem document_of_ofDocument {document : Bytes} (read : ofDocument document = .ok post) :
    post.Document Passed document := by
  obtain ⟨t', struct, ended⟩ := ofDocument_eq_ok.1 read
  rcases (readStruct_eq_ok tame_members distinct_members).1 struct with
    ⟨t, found, space, object, _, once⟩ | ⟨t, space, listed⟩
  · rw [names_members, List.forall_mem_map] at once
    exact .object space (object.imp fun stops stands => (stands_iff_behind stops).1 stands) once
      ended
  · rw [elements_eq] at listed
    exact .list space listed ended

theorem Behind.passed (behind : Behind Proper post name t t') : Behind Passed post name t t' := by
  unfold Behind at behind ⊢
  split_ifs at behind ⊢
  · exact behind
  · exact behind
  · exact behind
  · exact behind
  · exact behind
  · exact Derives.mono Proper.passed behind

theorem Behind.isText (behind : Behind Proper post name t t') (text : IsText t) : IsText t' := by
  have instant : ∀ {time}, InstantAt time t t' → IsText t' := by
    rintro time ⟨_, here, _⟩
    exact here.isText text
  unfold Behind at behind
  split_ifs at behind
  · exact behind.isText text
  · exact behind.isText text
  · exact behind.isText text
  · exact instant behind
  · exact instant behind
  · exact Derives.isText Proper.isText behind text

/-- A text that is a document of a post, with strings that stand for something, is read as it. -/
theorem ofDocument_of_document {document : Bytes} (text : IsText document)
    (holds : post.Document Proper document) : ofDocument document = .ok post := by
  apply ofDocument_eq_ok.2
  cases holds with
  | @object found t t' space object once ended =>
    have texts := object.isText Behind.isText (space.isText_cons (by decide) text)
    have stands : Members (Stands members post.toValues) true found t t' :=
      object.imp fun stops behind => (stands_iff_behind stops).2 behind.passed
    refine ⟨t', ?_, ended⟩
    apply (readStruct_eq_ok tame_members distinct_members).2
    refine .inl ⟨t, found, space, stands, texts, ?_⟩
    rw [names_members, List.forall_mem_map]
    exact once
  | @list t t' space listed ended =>
    refine ⟨t', ?_, ended⟩
    apply (readStruct_eq_ok tame_members distinct_members).2
    refine .inr ⟨t, space, ?_⟩
    rw [elements_eq]
    exact listed

/-- **What is written for a regular post is a document of it.** -/
theorem document_toDocument {post : Post} (regular : post.Regular) :
    post.Document Proper post.toDocument := by
  have text : ∀ text rest, TextAt text (writeText text ++ rest) rest := fun text rest =>
    readText_eq_ok.1 (reads_text text rest)
  have instant : ∀ time : Instant, time.Regular → ∀ rest,
      InstantAt time (writeInstant time ++ rest) rest := fun time regular rest =>
    readInstant_eq_ok.1 (reads_instant regular rest)
  have stands : ∀ piece ∈ pieces members post.toValues, ∀ rest,
      Behind Proper post (utf8 piece.1) (piece.2 ++ rest) rest := by
    intro piece member rest
    simp only [pieces, members, toValues, Member.text, Member.instant, List.mem_cons,
      List.not_mem_nil, or_false] at member
    rcases member with rfl | rfl | rfl | rfl | rfl
    · simpa [Behind, utf8_eq_iff] using text post.user rest
    · simpa [Behind, utf8_eq_iff] using text post.id rest
    · simpa [Behind, utf8_eq_iff] using text post.data rest
    · simpa [Behind, utf8_eq_iff] using instant post.createdAt regular.createdAt rest
    · simpa [Behind, utf8_eq_iff] using instant post.updatedAt regular.updatedAt rest
  have inside := members_intersperse (pieces members post.toValues) stands []
  rw [← writeMembers_eq] at inside
  refine .object .none inside ?_ .none
  intro name known
  apply List.count_eq_one_of_mem distinct_members
  rw [names_members]
  exact List.mem_map_of_mem known

/-! ## Times in documents -/

/-- The times in a document of a post stand there as strings. -/
theorem Document.times {string : Bytes → Bytes → Prop} {document : Bytes}
    (holds : post.Document string document) :
    (∃ t t', InstantAt post.createdAt t t') ∧ ∃ t t', InstantAt post.updatedAt t t' := by
  cases holds with
  | object _ object once _ =>
    have stands : ∀ name ∈ ["userID", "postID", "data", "createdAt", "updatedAt"],
        ∃ t t', Behind string post (utf8 name) t t' := fun name known =>
      object.behind_of_mem _ (List.count_pos_iff.1 (by rw [once name known]; decide))
    constructor
    · simpa [Behind, utf8_eq_iff] using stands "createdAt" (by decide)
    · simpa [Behind, utf8_eq_iff] using stands "updatedAt" (by decide)
  | list _ listed _ =>
    exact ⟨listed.stands_of_mem _ (by simp), listed.stands_of_mem _ (by simp)⟩

/-- The post of a document is regular. -/
theorem regular_of_ofDocument {document : Bytes} (read : ofDocument document = .ok post) :
    post.Regular := by
  obtain ⟨⟨_, _, _, _, created⟩, ⟨_, _, _, _, updated⟩⟩ := (document_of_ofDocument read).times
  exact ⟨Instant.regular_of_ofText created, Instant.regular_of_ofText updated⟩

/-- The document of a post stands for the post exactly if the post is regular. -/
theorem ofDocument_toDocument_iff : ofDocument post.toDocument = .ok post ↔ post.Regular :=
  ⟨regular_of_ofDocument, ofDocument_toDocument⟩

/-- **Posts are read from exactly their documents.**  What is read as a post is a document of it,
and every text that is a document of it, with escapes that denote characters throughout, is read as
that post. -/
theorem read_exactly (document : Bytes) (post : Post) :
    (ofDocument document = .ok post → post.Document Passed document) ∧
      (IsText document → post.Document Proper document → ofDocument document = .ok post) :=
  ⟨document_of_ofDocument, ofDocument_of_document⟩

end Post

end PostStore
