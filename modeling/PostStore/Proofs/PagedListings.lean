import PostStore.Proofs.Lmdb.Paging
import PostStore.Proofs.Postgres.Table
/-!
# Listings in pages

The document file and the database both list page by page.  Each page is a look at what is stored at
the time, behind what has been seen, and that is enough: whatever others file, change and drop
meanwhile, the reader misses nothing that stays and gets nothing twice.
-/

namespace PostStore

open Paging (Turn Chronicle)

/-- **A listing in pages is orderly, whatever is filed, changed and dropped between two pages.**
This holds of a file as long as no two names in use have the same digest, and of a table as long as
it stays proper and pages are selected as the statement says. -/
theorem paged_listings_orderly (pageSize : Nat) (user : String) :
    (∀ (names : Set String) (env : Lmdb.Environment), Lmdb.Distinct names →
      Lmdb.Sound names env → user ∈ names →
        ∃ cursor, (Lmdb.store pageSize).serve (.readAll user) env = (.ok cursor, env) ∧
          ∀ turns, (∀ call, .call call ∈ turns → ∀ name ∈ call.names, name ∈ names) →
            ((Chronicle.start cursor env).run (Lmdb.store pageSize) turns).failed = false →
              ((Chronicle.start cursor env).run (Lmdb.store pageSize) turns).Orderly
                Lmdb.Environment.held user) ∧
      ∀ (σ : Type) (serve : (question : Postgres.Ask) → σ → question.Reply × σ)
        (before : String → String → Bool) (table : σ → List Post) (bound : Postgres.Mark → σ → Nat)
        (s : σ), Postgres.SelectsPages serve before table → pageSize < 2 ^ 63 →
          ∃ cursor, (Postgres.storeOver serve pageSize bound).serve (.readAll user) s =
              (.ok cursor, s) ∧
            ∀ turns, (∀ s' ∈ ((Chronicle.start cursor s).run
                (Postgres.storeOver serve pageSize bound) turns).past, Postgres.Proper (table s')) →
              ((Chronicle.start cursor s).run
                (Postgres.storeOver serve pageSize bound) turns).failed = false →
                  ((Chronicle.start cursor s).run
                    (Postgres.storeOver serve pageSize bound) turns).Orderly
                      (fun s => Postgres.heldIn (table s)) user := by
  constructor
  · intro names env distinct sound known
    exact Lmdb.listing_orderly distinct pageSize sound known
  · intro σ serve before table bound s selects fits
    exact Postgres.listing_orderly selects fits bound user s

/-! ## A listing with interruptions -/

/-- The reader gets one post, the errands after the first three are run, and the reader reads on. -/
def interrupted : List Turn :=
  [.read, .read] ++ (errands.drop 3).map .call ++ List.replicate 5 .read

theorem mem_errands_of_interrupted {call : Call} (member : .call call ∈ interrupted) :
    call ∈ errands := by
  simp only [interrupted, List.mem_append, List.mem_cons, List.mem_map, List.mem_replicate,
    reduceCtorEq, List.not_mem_nil, or_false, and_false, false_or] at member
  obtain ⟨later, here, same⟩ := member
  cases same
  exact List.mem_of_mem_drop here

/-- A file after the first three errands. -/
def writtenFile : Lmdb.Environment := (Lmdb.store 1).after (errands.take 3) { capacity := 1024 }

theorem sound_writtenFile : Lmdb.Sound (Call.namesOf errands) writtenFile := by
  refine Lmdb.sound_after Lmdb.distinct_errands 1 1024 _ fun call early name used => ?_
  exact ⟨call, List.mem_of_mem_take early, used⟩

theorem readerHeld_writtenFile : writtenFile.readerHeld = false :=
  Store.after_keeps (fun env => env.readerHeld = false)
    (fun _ env _ free => (Lmdb.transact_readerHeld _ env).trans free) _ (fun _ _ => trivial) rfl

/-- A store in a table, with pages of one post. -/
def tableStore : Store Postgres.Table Postgres.Rows :=
  Postgres.storeOver Postgres.Table.serve 1 fun _ table => table.length

/-- A table after the first three errands. -/
def filledTable : Postgres.Table := tableStore.after (errands.take 3) []

theorem names_errands : ∀ call ∈ errands, Postgres.Table.Names call := by
  simp [errands, Postgres.Table.Names]

theorem proper_filledTable : Postgres.Proper filledTable := by
  have empty : Postgres.Proper [] :=
    ⟨List.nodup_nil, List.forall_mem_nil _, List.forall_mem_nil _⟩
  exact Postgres.Table.proper_after empty 1 _ _ fun call early =>
    names_errands call (List.mem_of_mem_take early)

/-- In pages of one post: the reader has got the first of two posts of a user when that user changes
and drops one of them. -/
theorem paged_listings_orderly_errands :
    (Lmdb.Distinct (Call.namesOf errands) ∧ Lmdb.Sound (Call.namesOf errands) writtenFile ∧
      ∃ cursor, (Lmdb.store 1).serve (.readAll "a") writtenFile = (.ok cursor, writtenFile) ∧
        ((Chronicle.start cursor writtenFile).run (Lmdb.store 1) interrupted).failed = false ∧
          ((Chronicle.start cursor writtenFile).run (Lmdb.store 1) interrupted).Orderly
            Lmdb.Environment.held "a") ∧
      Postgres.SelectsPages Postgres.Table.serve Postgres.Table.before (fun table => table) ∧
        ∃ cursor, tableStore.serve (.readAll "a") filledTable = (.ok cursor, filledTable) ∧
          (∀ table ∈ ((Chronicle.start cursor filledTable).run tableStore interrupted).past,
            Postgres.Proper table) ∧
          ((Chronicle.start cursor filledTable).run tableStore interrupted).failed = false ∧
          ((Chronicle.start cursor filledTable).run tableStore interrupted).ended = true ∧
          ((Chronicle.start cursor filledTable).run tableStore interrupted).ids = ["a", "b"] ∧
          ((Chronicle.start cursor filledTable).run tableStore interrupted).Orderly
            Postgres.heldIn "a" := by
  constructor
  · have known : "a" ∈ Call.namesOf errands := ⟨.readAll "a", by decide, by decide⟩
    have inUse : ∀ call, .call call ∈ interrupted → ∀ name ∈ call.names,
        name ∈ Call.namesOf errands := fun call member name used =>
      ⟨call, mem_errands_of_interrupted member, used⟩
    obtain ⟨cursor, opened, orderly⟩ := (paged_listings_orderly 1 "a").1 (Call.namesOf errands)
      writtenFile Lmdb.distinct_errands sound_writtenFile known
    obtain rfl := Except.ok.inj (congrArg Prod.fst opened)
    have calm := Lmdb.calm Lmdb.distinct_errands 1 sound_writtenFile readerHeld_writtenFile
      ⟨Lmdb.userKey "a", none, 1⟩ interrupted inUse
    exact ⟨Lmdb.distinct_errands, sound_writtenFile, _, opened, calm,
      orderly interrupted inUse calm⟩
  · obtain ⟨cursor, opened, orderly⟩ := (paged_listings_orderly 1 "a").2 Postgres.Table
      Postgres.Table.serve Postgres.Table.before (fun table => table)
        (fun _ table => table.length) filledTable Postgres.Table.selectsPages (by decide)
    have proper := Postgres.Table.proper_run proper_filledTable 1 (fun _ table => table.length)
      cursor interrupted fun call member => names_errands call (mem_errands_of_interrupted member)
    obtain rfl := Except.ok.inj (congrArg Prod.fst opened)
    refine ⟨Postgres.Table.selectsPages, _, opened, proper, ?calm, ?ended, ?ids,
      orderly interrupted proper ?calm⟩
    case calm => decide +kernel
    case ended => decide +kernel
    case ids => decide +kernel

end PostStore
