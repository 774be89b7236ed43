import PostStore.Proofs.Conformance.Steps
import PostStore.Proofs.FlatMemory
import PostStore.Proofs.Lmdb.Paging
import PostStore.Proofs.ServiceRuns
/-!
# Stores to run checks on

The store in memory and the store of documents in a file, as long as no two names in use have the
same digest and there is room.  Whatever checks can be run on a store can be run on it from behind a
cache that keeps up, and from behind none.
-/

namespace PostStore

/-! ## The stores -/

/-- A memory that shows a catalogue. -/
def Memory.bench : Conformance.Bench Memory Snapshot where
  store := store
  scope _ _ := True
  shows := Shows
  follows := follows
  own shown user id post found :=
    Coordinator.owns_iff.1 (shown.filed user id post (by rwa [shown.find]))
  opens user shown _ := ⟨_, _, rfl, shown.opens user⟩
  still cursor _ := by
    obtain ⟨more, cursor', step⟩ := next_snapshot cursor
    rw [step]
  closed _ _ := rfl
  known _ _ := ⟨trivial, trivial⟩

namespace Lmdb

variable {names : Set String} {env : Environment}

/-- A sound file holds posts under names among those given. -/
theorem Sound.names_of_held (sound : Sound names env) {user id : String} {post : Post}
    (found : env.entries.held user id = some post) : user ∈ names ∧ id ∈ names := by
  obtain ⟨-, stocked⟩ := sound
  obtain ⟨document, member, decoded, rfl, rfl⟩ := (Entries.held_eq_some stocked.sorted).1 found
  obtain ⟨post', decoded', -, hu, hi⟩ := stocked.filed _ member
  obtain rfl := Except.ok.inj (decoded.symm.trans decoded')
  exact ⟨hu, hi⟩

/-- An advance leaves a sound file as it is. -/
theorem Sound.next_eq (sound : Sound names env) (pageSize : Nat) (cursor : Pages) :
    ((store pageSize).feed.next cursor env).2.2 = env := by
  refine Cursor.next_keeps (· = env) ?_ cursor rfl
  rintro mark _ result env' rfl got
  rw [← sound.fetchPage mark, got]

/-- A file that shows a catalogue, with pages of any size. -/
def bench {names : Set String} (distinct : Distinct names) (pageSize : Nat) :
    Conformance.Bench Environment Pages where
  store := store pageSize
  scope call env := (∀ name ∈ call.names, name ∈ names) ∧ HasRoom call env
  shows := Shows names
  follows := follows distinct pageSize
  own shown user id post found := Entries.held_own (by rwa [shown.holds])
  opens user shown inScope := opens shown distinct pageSize (inScope.1 user List.mem_cons_self)
  still cursor shown := shown.sound.next_eq pageSize cursor
  closed _ _ := rfl
  known shown found := by
    obtain ⟨hu, hi⟩ := shown.sound.names_of_held (by rwa [shown.holds])
    refine ⟨⟨?_, fun _ files => nomatch files⟩, ?_, fun _ files => nomatch files⟩
    · simp [Call.names, hu, hi]
    · simp [Call.names, hu]

end Lmdb

/-! ## A cache in front -/

section Behind

variable {ω σ τ κ : Type}

/-- A feed of the first of two media advances in that one. -/
theorem Store.next_within (store : Store σ κ) (cursor : κ) (s : σ) (t : τ) :
    (store.within (Part.first (τ := τ))).feed.next cursor (s, t) =
      ((store.feed.next cursor s).1, (store.feed.next cursor s).2.1,
        (store.feed.next cursor s).2.2, t) := rfl

/-- What a feed delivers it delivers in a larger medium. -/
theorem Feed.Delivers.within {store : Store σ κ} {cursor : κ} {s final : σ} {posts : List Post}
    (delivers : store.feed.Delivers cursor s posts final) (t : τ) :
    (store.within (Part.first (τ := τ))).feed.Delivers cursor (s, t) posts (final, t) := by
  induction delivers with
  | @nothing cursor cursor' s final stop ended =>
    obtain ⟨nothing, last, stays⟩ := ended
    have stop' := store.next_within cursor s t
    have stays' := store.next_within cursor' final t
    rw [stop] at stop'
    rw [stays] at stays'
    exact .nothing stop' ⟨nothing, last, stays'⟩
  | @post cursor cursor' s s' final post posts reached taken rest ih =>
    have reached' := store.next_within cursor s t
    rw [reached] at reached'
    exact .post reached' taken ih

namespace Conformance.Bench

/-- The store without a cache in front of it. -/
def behindAbsent (bench : Bench ω κ) : Bench ω κ where
  store := bench.store.behind Cache.absent
  scope := bench.scope
  shows := bench.shows
  follows := bench.follows.behind_absent
  own := bench.own
  opens user shown inScope := by
    obtain ⟨cursor, posts, opened, lists⟩ := bench.opens user shown inScope
    refine ⟨cursor, posts, ?_, lists.delivers, lists.few, lists.once, lists.all⟩
    rw [serve_behind_absent, opened]
  still := bench.still
  closed := bench.closed
  known := bench.known

/-- The store behind a cache that holds only what it was given and lets go of what it is told to. -/
def cachedBy (bench : Bench σ κ) {cache : Cache τ} {peek : τ → Catalogue}
    (forgetful : cache.Forgetful peek) (clears : ∀ t call, cache.Clears peek t call) :
    Bench (σ × τ) κ where
  store := bench.store.cachedBy cache
  scope call medium := bench.scope call medium.1
  shows := ShowsBehind bench.shows peek
  follows := bench.follows.cachedBy forgetful clears
  own shown := shown.2.1
  opens := by
    rintro held ⟨s, t⟩ user shown inScope
    obtain ⟨cursor, posts, opened, lists⟩ := bench.opens user shown.1 inScope
    refine ⟨cursor, posts, ?_, lists.delivers.within t, lists.few, lists.once, lists.all⟩
    rw [serve_readAll_cachedBy, opened]
  still := by
    rintro held ⟨s, t⟩ cursor shown
    exact Prod.ext (bench.still cursor shown.1) rfl
  closed cursor medium := bench.closed cursor medium.1
  known shown found := bench.known shown.1 found

end Conformance.Bench

end Behind

/-- Nothing is ever found in a cache that is out of reach. -/
theorem Cache.forgetful_unreachable :
    Cache.unreachable.Forgetful fun _ _ _ => none where
  get _ _ _ _ found := nomatch found
  get_keeps _ _ _ _ _ _ found := nomatch found
  add _ _ _ _ _ _ _ _ found := nomatch found
  remove _ _ _ _ _ _ found := nomatch found

theorem Cache.clears_unreachable (calls : Nat) (call : CacheCall) :
    Cache.unreachable.Clears (fun _ _ _ => none) calls call := by
  cases call with
  | get => trivial
  | add => exact fun _ found _ => nomatch found
  | remove => exact fun _ found => nomatch found

end PostStore
