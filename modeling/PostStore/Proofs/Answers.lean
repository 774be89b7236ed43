import PostStore.Proofs.DocumentGrammar
import PostStore.Service.Error
import PostStore.Service.Response
/-!
# Answers are read as they were written

A list is read as it was written when its elements are and none of them starts like the end of a
list.  With that, everything that is kept or answered as a document is read back from it: posts,
the four answers of the service, errors and their codes.  The times in it have to be regular; a leap
second inside a minute has no text of its own.
-/

namespace PostStore

namespace Json

/-! ## Whole documents -/

/-- The value is read back from a document of its own. -/
def RoundTrips {α : Type} (read : Reader α) (write : α → Bytes) (value : α) : Prop :=
  readDocument read (write value) = .ok value

/-- What is read as it is written, whatever follows it, is also read when nothing does. -/
theorem Reads.roundTrips {α : Type} {read : Reader α} {write : α → Bytes} {value : α}
    (reads : Reads read write value) : RoundTrips read write value := by
  have alone := reads []
  rw [List.append_nil] at alone
  simp only [RoundTrips, readDocument, alone]
  rfl

/-! ## Lists -/

section Lists

variable {α : Type} {read : Reader α} {write : α → Bytes}

/-- Written values start with a byte that is neither white space nor the end of a list. -/
def Opens (write : α → Bytes) : Prop :=
  ∀ value, ∃ b rest, write value = b :: rest ∧ isSpace b = false ∧ b ≠ 93

theorem opens_writeStruct {members : List Member} (values : α → Values members) :
    Opens fun value => writeStruct members (values value) :=
  fun value => ⟨123, _, rfl, by decide, by decide⟩

/-- From where an element starts, the element is read. -/
theorem readElements_element {value : α} (reads : Reads read write value) (opens : Opens write)
    {done : List α} {bytes rest : Bytes}
    (next : nextElement done.isEmpty bytes = .ok (write value ++ rest)) (fuel : Nat) :
    readElements read (fuel + 1) done bytes = readElements read fuel (value :: done) rest := by
  obtain ⟨b, tail, start, _, notEnd⟩ := opens value
  have element := reads rest
  rw [start, List.cons_append] at next element
  simp only [readElements, next, if_neg notEnd, element]

/-- A comma leads to the element behind it. -/
theorem nextElement_comma (opens : Opens write) (value : α) (rest : Bytes) :
    nextElement false (44 :: (write value ++ rest)) = .ok (write value ++ rest) := by
  obtain ⟨b, tail, start, space, notEnd⟩ := opens value
  have comma : skipSpace (44 :: (write value ++ rest)) = 44 :: (write value ++ rest) :=
    skipSpace_of_not_isSpace (by decide) _
  have behind : skipSpace (write value ++ rest) = write value ++ rest := by
    rw [start, List.cons_append, skipSpace_of_not_isSpace space]
  rw [nextElement, comma]
  simp only [behind]
  rw [start, List.cons_append]
  simp [notEnd]

/-- The elements after the first are read, up to the closing bracket. -/
theorem readElements_rest (opens : Opens write) (rest : Bytes) (left : List α)
    (reads : ∀ value ∈ left, Reads read write value) :
    ∀ {done : List α} {fuel : Nat}, done ≠ [] →
      (left.flatMap (fun value => 44 :: write value) ++ 93 :: rest).length < fuel →
      readElements read fuel done (left.flatMap (fun value => 44 :: write value) ++ 93 :: rest) =
        .ok (done.reverse ++ left, rest) := by
  -- each element that is left takes bytes, so fuel for every byte is fuel for every element
  induction left with
  | nil =>
    intro done fuel some enough
    obtain ⟨fuel, rfl⟩ : ∃ more, fuel = more + 1 := ⟨fuel - 1, by omega⟩
    have last : nextElement done.isEmpty (93 :: rest) = .ok (93 :: rest) := by
      rw [nextElement, skipSpace_of_not_isSpace (by decide)]
      rfl
    rw [List.flatMap_nil, List.nil_append, readElements, last, List.append_nil]
    rfl
  | cons value left ih =>
    intro done fuel some enough
    obtain ⟨fuel, rfl⟩ : ∃ more, fuel = more + 1 := ⟨fuel - 1, by omega⟩
    rw [List.flatMap_cons, List.append_assoc, List.cons_append] at enough ⊢
    have later : done.isEmpty = false := List.isEmpty_eq_false_iff.2 some
    rw [List.length_cons, List.length_append] at enough
    rw [readElements_element (reads value List.mem_cons_self) opens
        (by rw [later]; exact nextElement_comma opens value _),
      ih (fun value member => reads value (List.mem_cons_of_mem _ member))
        (List.cons_ne_nil value done) (by omega), List.reverse_cons, List.append_assoc,
      List.singleton_append]

/-- **A list is read as it was written.** -/
theorem reads_list (opens : Opens write) {values : List α}
    (reads : ∀ value ∈ values, Reads read write value) :
    Reads (readList read) (writeList write) values := by
  intro rest
  have start : skipSpace (writeList write values ++ rest) =
      91 :: (((values.map write).intersperse [44]).flatten ++ 93 :: rest) := by
    simp [writeList, skipSpace, isSpace]
  simp only [readList, start, if_true]
  cases values with
  | nil =>
    have last : nextElement true (93 :: rest) = .ok (93 :: rest) := by
      rw [nextElement, skipSpace_of_not_isSpace (by decide)]
      rfl
    simp only [List.map_nil, List.intersperse_nil, List.flatten_nil, List.nil_append,
      List.length_cons, readElements, List.isEmpty_nil, last]
    rfl
  | cons value left =>
    -- the first value stands at the bracket, each other one behind a comma
    have others : (left.map write).flatMap (([44] : Bytes) ++ ·) =
        left.flatMap fun value => 44 :: write value := by
      rw [List.flatMap_map]
      rfl
    rw [List.map_cons, flatten_intersperse, others, List.append_assoc]
    generalize behind : left.flatMap (fun value => 44 :: write value) ++ 93 :: rest = bytes
    obtain ⟨b, tail, opening, space, _⟩ := opens value
    have first : nextElement (List.isEmpty ([] : List α)) (write value ++ bytes) =
        .ok (write value ++ bytes) := by
      rw [opening, List.cons_append, nextElement, skipSpace_of_not_isSpace space]
      simp
    have enough : bytes.length < (write value ++ bytes).length := by
      rw [opening, List.cons_append, List.length_cons, List.length_append]
      omega
    rw [readElements_element (reads value List.mem_cons_self) opens first, ← behind,
      readElements_rest opens rest left
        (fun value member => reads value (List.mem_cons_of_mem _ member))
        (List.cons_ne_nil value []) (behind ▸ enough)]
    rfl

end Lists

end Json

open Json

/-! ## The answers of the service -/

/-- The times in the listing are regular. -/
def Listing.Regular (answer : Listing) : Prop := ∀ shown ∈ answer.posts, shown.post.Regular

theorem Created.reads {answer : Created} (regular : answer.createdAt.Regular) :
    Reads Created.read Created.write answer := by
  intro rest
  have each : ReadsEach Created.members (answer.id, answer.createdAt, ()) :=
    ⟨reads_text _, reads_instant regular, trivial⟩
  have read := readStruct_writeStruct "CreateResponse" each (by decide) rest
  simp only [Created.read, Created.write, read]

theorem Updated.reads {answer : Updated} (regular : answer.updatedAt.Regular) :
    Reads Updated.read Updated.write answer := by
  intro rest
  have each : ReadsEach Updated.members (answer.id, answer.updatedAt, ()) :=
    ⟨reads_text _, reads_instant regular, trivial⟩
  have read := readStruct_writeStruct "UpdateResponse" each (by decide) rest
  simp only [Updated.read, Updated.write, read]

theorem Shown.reads {shown : Shown} (regular : shown.post.Regular) :
    Reads Shown.read Shown.write shown := by
  obtain ⟨post⟩ := shown
  intro rest
  have each : ReadsEach Shown.members
      (post.user, post.id, post.data, post.createdAt, post.updatedAt, ()) :=
    ⟨reads_text _, reads_text _, reads_text _, reads_instant regular.createdAt,
      reads_instant regular.updatedAt, trivial⟩
  have read := readStruct_writeStruct "PostResponse" each (by decide) rest
  simp only [Shown.read, Shown.write, read]

theorem Listing.reads {answer : Listing} (regular : answer.Regular) :
    Reads Listing.read Listing.write answer := by
  intro rest
  have each : ReadsEach Listing.members (answer.posts, ()) :=
    ⟨reads_list (opens_writeStruct _) fun shown member => Shown.reads (regular shown member),
      trivial⟩
  have read := readStruct_writeStruct "ReadAllResponse" each (by decide) rest
  simp only [Listing.read, Listing.write, read]

/-! ## Errors -/

theorem ErrorCode.reads (code : ErrorCode) : Reads ErrorCode.read ErrorCode.write code := by
  intro rest
  have known : ErrorCode.ofDocumentName code.documentName = .ok code := by cases code <;> rfl
  have name : ErrorCode.readName (code.write ++ rest) = .ok (code, rest) :=
    readQuoted_writeText known rest
  have start : skipSpace (code.write ++ rest) = code.write ++ rest :=
    skipSpace_of_not_isSpace (by decide) _
  rw [ErrorCode.read, start]
  exact name

theorem ServiceError.reads (error : ServiceError) :
    Reads ServiceError.read ServiceError.write error := by
  intro rest
  have each : ReadsEach ServiceError.members (error.code, error.message, ()) :=
    ⟨ErrorCode.reads _, reads_text _, trivial⟩
  have read := readStruct_writeStruct "ServiceError" each (by decide) rest
  simp only [ServiceError.read, ServiceError.write, read]

/-! ## All documents -/

/-- **Whatever is kept or answered as a document is read back from it:** posts, what the service
answers to its four kinds of request that have an answer, its errors and their codes; provided that
a leap second in it ends a minute.  A post with another leap second is not read back. -/
theorem documents_round_trip :
    (∀ post : Post, Post.ofDocument post.toDocument = .ok post ↔ post.Regular) ∧
      (∀ answer : Created, answer.createdAt.Regular →
        RoundTrips Created.read Created.write answer) ∧
      (∀ answer : Shown, answer.post.Regular → RoundTrips Shown.read Shown.write answer) ∧
      (∀ answer : Listing, answer.Regular → RoundTrips Listing.read Listing.write answer) ∧
      (∀ answer : Updated, answer.updatedAt.Regular →
        RoundTrips Updated.read Updated.write answer) ∧
      (∀ error : ServiceError, RoundTrips ServiceError.read ServiceError.write error) ∧
      ∀ code : ErrorCode, RoundTrips ErrorCode.read ErrorCode.write code :=
  ⟨fun _ => Post.ofDocument_toDocument_iff,
    fun _ regular => (Created.reads regular).roundTrips,
    fun _ regular => (Shown.reads regular).roundTrips,
    fun _ regular => (Listing.reads regular).roundTrips,
    fun _ regular => (Updated.reads regular).roundTrips,
    fun error => error.reads.roundTrips, fun code => code.reads.roundTrips⟩

/-- The middle of the leap second that ended June 1972. -/
def leapSecond : Instant := ⟨78796799, 1500000000, by decide, by decide⟩

/-- A post made and changed in a leap second, whose text needs escapes, with the answers that carry
it. -/
theorem documents_round_trip_leapSecond :
    let post : Post := ⟨"u", "p", "\"\\\n", leapSecond, leapSecond⟩
    Post.ofDocument post.toDocument = .ok post ∧
      RoundTrips Created.read Created.write ⟨post.id, post.createdAt⟩ ∧
      RoundTrips Shown.read Shown.write ⟨post⟩ ∧
      RoundTrips Listing.read Listing.write ⟨[⟨post⟩, ⟨post⟩]⟩ ∧
      RoundTrips Updated.read Updated.write ⟨post.id, post.updatedAt⟩ := by
  intro post
  have regular : post.Regular := by decide
  obtain ⟨posts, created, shown, listing, updated, -⟩ := documents_round_trip
  refine ⟨(posts post).2 regular, created _ regular.createdAt, shown _ regular, listing _ ?_,
    updated _ regular.updatedAt⟩
  exact List.forall_mem_cons.2 ⟨regular, List.forall_mem_singleton.2 regular⟩

end PostStore
