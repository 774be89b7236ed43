import PostStore.Lmdb.Store
/-!
# Reading a page of the document file

The store over any file, and what becomes of a page by what the file answers: the entries of the
user that it finds one behind the other, until the page is full, there are no more of them, or a
question is refused.  The entries found before a refusal are not lost.
-/

namespace PostStore.Lmdb

section Over

variable {σ : Type} (serve : (question : Ask) → σ → question.Reply × σ) (settle : σ → σ)

/-! ## The store over any file -/

/-- Runs a transaction over any file, which settles at the end. -/
def transactWith {ε α : Type} (talk : ExceptT ε (Dialogue Ask Ask.Reply) α) (s : σ) :
    Except ε α × σ :=
  let (result, s) := Dialogue.run serve talk.run s
  (result, settle s)

/-- The store over any file.  What is listed from a mark has at most `bound` documents. -/
def storeOver (pageSize : Nat) (bound : Mark → σ → Nat) : Store σ Pages where
  name := storeName
  serve call := transactWith serve settle (perform (max 1 pageSize) call)
  feed := Cursor.feed (fun mark => transactWith serve settle (fetchPage mark)) decode bound

/-- Over the plain file this is the store as it is set up. -/
theorem storeOver_serve (pageSize : Nat) :
    storeOver Environment.serve Environment.abandon pageSize (fun _ env => env.entries.length) =
      store pageSize := rfl

/-! ## Answers -/

/-- From a mark on the file finds some entries of the user, one behind the other, and then the mark
stands at the last of them. -/
inductive Finds : Mark → σ → Entries → Mark → σ → Prop where
  | nothing {mark : Mark} {s : σ} : Finds mark s [] mark s
  | entry {mark mark' : Mark} {s s' s'' : σ} {entry : Bytes × Bytes} {entries : Entries}
      (served : serve mark.seek s = (.ok (some entry), s')) (own : mark.owner <+: entry.1)
      (others : Finds { mark with after := some entry.1 } s' entries mark' s'') :
      Finds mark s (entry :: entries) mark' s''

/-- What the file answers when a page is read. -/
inductive Answers : Mark → σ → Except (Cursor.Fault Bytes) (Cursor.Page Mark Bytes) → σ → Prop where
  /-- No transaction begins. -/
  | unbegun {mark : Mark} {s s' : σ} {failure : Failure}
      (refused : serve .beginRead s = (.error failure, s')) :
      Answers mark s (.error { error := failure.toStoreError }) (settle s')
  /-- There is no place to read from. -/
  | unopened {mark : Mark} {s s₁ s' : σ} {failure : Failure}
      (begun : serve .beginRead s = (.ok (), s₁))
      (refused : serve .openRange s₁ = (.error failure, s')) :
      Answers mark s (.error { error := failure.toStoreError }) (settle s')
  /-- Behind some entries the file refuses to tell the next. -/
  | refused {mark mark' : Mark} {s s₁ s₂ s₃ s' : σ} {entries : Entries} {failure : Failure}
      (begun : serve .beginRead s = (.ok (), s₁)) (opened : serve .openRange s₁ = (.ok (), s₂))
      (finds : Finds serve mark s₂ entries mark' s₃) (room : entries.length < mark.pageSize)
      (refused : serve mark'.seek s₃ = (.error failure, s')) :
      Answers mark s (.error { error := failure.toStoreError, got := entries.map Prod.snd })
        (settle s')
  /-- Behind some entries there is none, or one of somebody else. -/
  | last {mark mark' : Mark} {s s₁ s₂ s₃ s' : σ} {entries : Entries}
      {next : Option (Bytes × Bytes)} (begun : serve .beginRead s = (.ok (), s₁))
      (opened : serve .openRange s₁ = (.ok (), s₂)) (finds : Finds serve mark s₂ entries mark' s₃)
      (room : entries.length < mark.pageSize) (served : serve mark'.seek s₃ = (.ok next, s'))
      (foreign : ∀ entry ∈ next, ¬ mark.owner <+: entry.1) :
      Answers mark s (.ok (entries.map Prod.snd, none)) (settle s')
  /-- There are as many entries as a page can have. -/
  | full {mark mark' : Mark} {s s₁ s₂ s₃ : σ} {entries : Entries}
      (begun : serve .beginRead s = (.ok (), s₁)) (opened : serve .openRange s₁ = (.ok (), s₂))
      (finds : Finds serve mark s₂ entries mark' s₃) (full : entries.length = mark.pageSize) :
      Answers mark s (.ok (entries.map Prod.snd, some mark')) (settle s₃)

end Over

/-! ## Reading as the file answers -/

section Reading

variable {σ : Type} {serve : (question : Ask) → σ → question.Reply × σ} {settle : σ → σ}
  {mark mark' : Mark} {s s' : σ} {entries : Entries}

/-- The mark that finds entries goes on in what is the user's, -/
theorem Finds.owner (finds : Finds serve mark s entries mark' s') : mark'.owner = mark.owner := by
  induction finds with
  | nothing => rfl
  | entry _ _ _ ih => exact ih

/-- with pages of the same size. -/
theorem Finds.pageSize (finds : Finds serve mark s entries mark' s') :
    mark'.pageSize = mark.pageSize := by
  induction finds with
  | nothing => rfl
  | entry _ _ _ ih => exact ih

/-- Runs what is left of the reading of a page. -/
def runReading (serve : (question : Ask) → σ → question.Reply × σ) (reading : Reading) (s : σ) :
    Except (Cursor.Fault Bytes) (Cursor.Page Mark Bytes) × σ :=
  Dialogue.run serve (ExceptT.run reading) s

/-- A reading goes on with what is answered, or ends with what it has got. -/
theorem runReading_bind {question : Ask} (got : List Bytes) (next : question.Result → Reading)
    (s : σ) :
    runReading serve (callWith got question >>= next) s =
      match serve question s with
      | (.error failure, s') => (.error { error := failure.toStoreError, got := got }, s')
      | (.ok result, s') => runReading serve (next result) s' := by
  show Dialogue.run serve (.ask question _) s = _
  rw [Dialogue.run]
  rcases serve question s with ⟨failure | result, s'⟩ <;> rfl

/-- An entry of the user's is read, and the reading goes on behind it. -/
theorem runReading_own {entry : Bytes × Bytes}
    (served : serve mark.seek s = (.ok (some entry), s')) (own : mark.owner <+: entry.1)
    (got : List Bytes) (room : Nat) :
    runReading serve (readOn got (room + 1) mark) s =
      runReading serve (readOn (got ++ [entry.2]) room { mark with after := some entry.1 }) s' := by
  rw [readOn, runReading_bind, served]
  simp only [if_pos (List.isPrefixOf_iff_prefix.2 own)]

/-- Where there is no entry of the user's, the reading ends. -/
theorem runReading_foreign {next : Option (Bytes × Bytes)}
    (served : serve mark.seek s = (.ok next, s'))
    (foreign : ∀ entry ∈ next, ¬ mark.owner <+: entry.1) (got : List Bytes) (room : Nat) :
    runReading serve (readOn got (room + 1) mark) s = (.ok (got, none), s') := by
  rw [readOn, runReading_bind, served]
  cases next with
  | none => rfl
  | some entry =>
    have other := mt List.isPrefixOf_iff_prefix.1 (foreign entry rfl)
    simp only [if_neg other]
    rfl

/-- What the file finds is read, as far as there is room for it. -/
theorem Finds.runReading_eq (finds : Finds serve mark s entries mark' s') (room : Nat) :
    ∀ got, runReading serve (readOn got (entries.length + room) mark) s =
      runReading serve (readOn (got ++ entries.map Prod.snd) room mark') s' := by
  induction finds with
  | nothing =>
    intro got
    rw [List.length_nil, Nat.zero_add, List.map_nil, List.append_nil]
  | @entry mark mark' s s' s'' entry entries served own others ih =>
    intro got
    rw [List.length_cons, Nat.add_right_comm, runReading_own served own, ih, List.map_cons,
      List.append_assoc, List.singleton_append]

/-- A page ends full, or behind its last entry the file refuses to tell the next or tells that there
is none of the user's. -/
theorem exists_finds (serve : (question : Ask) → σ → question.Reply × σ) (room : Nat) :
    ∀ (mark : Mark) (s : σ),
    ∃ entries mark' s₁, Finds serve mark s entries mark' s₁ ∧
      (entries.length = room ∨ entries.length < room ∧
        ∃ reply s', serve mark'.seek s₁ = (reply, s') ∧
          ∀ entry, reply = .ok (some entry) → ¬ mark.owner <+: entry.1) := by
  induction room with
  | zero => exact fun mark s => ⟨[], mark, s, .nothing, .inl rfl⟩
  | succ room ih =>
    intro mark s
    rcases served : serve mark.seek s with ⟨reply, s'⟩
    by_cases own : ∃ entry, reply = .ok (some entry) ∧ mark.owner <+: entry.1
    · obtain ⟨entry, rfl, own⟩ := own
      obtain ⟨entries, mark', s₁, finds, stops⟩ :=
        ih { mark with after := some entry.1 } s'
      refine ⟨entry :: entries, mark', s₁, .entry served own finds, ?_⟩
      rw [List.length_cons, Nat.add_right_cancel_iff, Nat.add_lt_add_iff_right]
      exact stops
    · refine ⟨[], mark, s, .nothing, .inr ⟨Nat.zero_lt_succ room, reply, s', served, ?_⟩⟩
      exact fun entry given own' => own ⟨entry, given, own'⟩

/-- A page is read when a transaction has begun and there is a place to read from. -/
theorem transactWith_fetchPage (mark : Mark) (s : σ) :
    transactWith serve settle (fetchPage mark) s =
      ((runReading serve (fetchPage mark) s).1,
        settle (runReading serve (fetchPage mark) s).2) := rfl

theorem runReading_begun {s₁ : σ} (begun : serve .beginRead s = (.ok (), s₁)) :
    runReading serve (fetchPage mark) s = runReading serve
      (callWith [] .openRange >>= fun _ => readOn [] mark.pageSize mark) s₁ := by
  rw [fetchPage, runReading_bind, begun]

theorem runReading_opened {s₁ s₂ : σ} (begun : serve .beginRead s = (.ok (), s₁))
    (opened : serve .openRange s₁ = (.ok (), s₂)) :
    runReading serve (fetchPage mark) s = runReading serve (readOn [] mark.pageSize mark) s₂ := by
  rw [runReading_begun begun, runReading_bind, opened]

theorem Answers.heeded {result : Except (Cursor.Fault Bytes) (Cursor.Page Mark Bytes)}
    (answers : Answers serve settle mark s result s') :
    transactWith serve settle (fetchPage mark) s = (result, s') := by
  rw [transactWith_fetchPage]
  cases answers with
  | unbegun refused => rw [fetchPage, runReading_bind, refused]
  | unopened begun refused => rw [runReading_begun begun, runReading_bind, refused]
  | refused begun opened finds room refused =>
    obtain ⟨left, size⟩ := Nat.exists_eq_add_of_lt room
    rw [runReading_opened begun opened, size, Nat.add_assoc, finds.runReading_eq, readOn,
      runReading_bind, refused]
    rfl
  | last begun opened finds room served foreign =>
    obtain ⟨left, size⟩ := Nat.exists_eq_add_of_lt room
    rw [runReading_opened begun opened, size, Nat.add_assoc, finds.runReading_eq,
      runReading_foreign served fun entry there => finds.owner ▸ foreign entry there]
    rfl
  | full begun opened finds full =>
    have read := finds.runReading_eq 0 []
    rw [Nat.add_zero, full] at read
    rw [runReading_opened begun opened, read]
    rfl

/-- **A page is read exactly as the file answers**, whatever it answers. -/
theorem answers_iff {result : Except (Cursor.Fault Bytes) (Cursor.Page Mark Bytes)} :
    Answers serve settle mark s result s' ↔
      transactWith serve settle (fetchPage mark) s = (result, s') := by
  refine ⟨Answers.heeded, fun read => ?_⟩
  -- some answer there is, and the page is read by it
  suffices answered : ∃ result s', Answers serve settle mark s result s' by
    obtain ⟨result', s'', answers⟩ := answered
    obtain ⟨rfl, rfl⟩ := Prod.mk.inj (answers.heeded.symm.trans read)
    exact answers
  rcases begun : serve .beginRead s with ⟨failure | _, s₁⟩
  · exact ⟨_, _, .unbegun begun⟩
  rcases opened : serve .openRange s₁ with ⟨failure | _, s₂⟩
  · exact ⟨_, _, .unopened begun opened⟩
  obtain ⟨entries, mark', s₃, finds, full | ⟨room, reply, s', served, foreign⟩⟩ :=
    exists_finds serve mark.pageSize mark s₂
  · exact ⟨_, _, .full begun opened finds full⟩
  · cases reply with
    | error failure => exact ⟨_, _, .refused begun opened finds room served⟩
    | ok next =>
      refine ⟨_, _, .last begun opened finds room served ?_⟩
      rintro entry rfl
      exact foreign entry rfl

end Reading

end PostStore.Lmdb
