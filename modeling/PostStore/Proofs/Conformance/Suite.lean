import PostStore.Proofs.Conformance.Benches
import PostStore.Proofs.Conformance.Checks
/-!
# The suite on a store with posts

The suite can be run on a store that others use.  Whatever posts a memory or a document file has
come to hold, every check ends well, and afterwards what was there before is given as before.  This
is so with no cache and behind every cache, as long as the cache and the store are in keeping.
-/

namespace PostStore

/-- Whether none of the next identifiers is part of the name of a user of whom something is held. -/
def Supply.Unused (supply : Supply) (count : Nat) (held : Catalogue) : Prop :=
  ∀ fresh ∈ supply.takeMany count, ∀ user id post, held user id = some post →
    ¬ fresh.id.toList <:+: user.toList

/-- Of users who are named with identifiers that are not in use nothing is held. -/
theorem Supply.Unused.vacant {supply : Supply} {count : Nat} {held : Catalogue}
    (unused : supply.Unused count held) {user : String} (named : supply.Names count user)
    (id : String) : held user id = none := by
  obtain ⟨index, less, same⟩ := named
  rw [Option.eq_none_iff_forall_ne_some]
  intro post found
  exact unused _ (item_mem index less) user id post found (same ▸ lastHex_isInfix user.toList)

/-- No name that is shorter than the identifiers of a supply that starts at an instant has one of
them in it. -/
theorem Supply.unused_starting (start : ClockReading) (count : Nat) {held : Catalogue}
    (short : ∀ user id post, held user id = some post → user.toList.length < 32) :
    (starting start).Unused count held := by
  intro fresh member user id post found part
  have le := part.length_le
  rw [length_starting member] at le
  exact absurd (short user id post found) (Nat.not_lt.2 le)

/-- What is in scope behind some calls about single posts is so when these have been made. -/
theorem Store.within_after {σ κ : Type} {store : Store σ κ} {scope : Call → σ → Prop}
    {calls : List Call} (more : List Call) (single : ∀ call ∈ calls, call.pair?.isSome) :
    ∀ {state : σ}, store.Within scope (calls ++ more) state →
      store.Within scope more (store.after calls state) := by
  induction calls with
  | nil => exact fun within => within
  | cons call calls ih =>
    intro state within
    have served : (store.complete call state).2 = (store.serve call state).2 := by
      cases call with
      | readAll user => cases single _ List.mem_cons_self
      | _ => rfl
    refine ih (fun other later => single other (List.mem_cons_of_mem call later)) ?_
    rw [← served]
    exact within.2

namespace Conformance

section Safety

variable {ω σ κ : Type}

/-- Whether a store gives all that a catalogue holds: each post when it is read, and of a user who
has posts all of them, each once, when they are listed. -/
structure Returns (store : Store ω κ) (held : Catalogue) (state : ω) : Prop where
  read : ∀ user id post, held user id = some post →
    (store.serve (.read user id) state).1 = .ok post
  listed : ∀ user id post, held user id = some post → ∃ posts : List Post,
    (Service.listAll store user state).1 = .ok posts ∧ posts.Nodup ∧
      ∀ other, other ∈ posts ↔ held user other.id = some other

/-- Whether the suite gets to its end, and what is held is given before and afterwards. -/
structure Safe (store : Store ω κ) (held : Catalogue) (supply : Supply) (state : ω) : Prop where
  before : Returns store held state
  ends : ∃ after, (runAll store).run.run (state, supply) = (some (), after) ∧
    Returns store held after.1

/-- A store gives what it holds, and what another catalogue holds that is the same for the users of
that one. -/
theorem Bench.returns (bench : Bench ω κ) {held now : Catalogue} {state : ω}
    (shown : bench.shows now state)
    (same : ∀ user id post, held user id = some post → now user = held user) :
    Returns bench.store held state where
  read user id post found := by
    have stays : now user id = some post := by rwa [same user id post found]
    obtain ⟨given, -⟩ :=
      bench.follows (.read user id) now state shown (bench.known shown stays).1
    exact Eq.trans given (Catalogue.lookup_eq_ok.2 stays)
  listed user id post found := by
    have stays : now user id = some post := by rwa [same user id post found]
    obtain ⟨⟨posts, given, once, all⟩, -⟩ :=
      bench.follows (.readAll user) now state shown (bench.known shown stays).2
    rw [same user id post found] at all
    exact ⟨posts, given, once, all⟩

/-- Running the suite on a store that shows what it holds is safe. -/
theorem Bench.safe (bench : Bench ω κ) {held : Catalogue} {supply : Supply} {state : ω}
    (good : supply.Good suiteScript.uses) (unused : supply.Unused suiteScript.uses held)
    (shown : bench.shows held state)
    (within : bench.store.Within bench.scope (suiteScript.calls supply) state) :
    Safe bench.store held supply state where
  before := bench.returns shown fun _ _ _ _ => rfl
  ends := by
    have stands : bench.Stands supply held held (suiteScript.calls supply ++ []) 0
        (state, supply) :=
      ⟨shown, by rwa [List.append_nil], rfl, fun _ _ => rfl⟩
    obtain ⟨_, after, run, now, stands⟩ :=
      passes_runAll bench good (fun _ named => unused.vacant named) stands
    refine ⟨after, run, bench.returns stands.shown fun user id post found => ?_⟩
    refine stands.elsewhere user fun named => ?_
    rw [unused.vacant named id] at found
    cases found

/-- Whether running the suite on a store is safe, on the store itself and from behind no cache, a
cache that is out of reach, and any cache in memory that has no post but those in the store. -/
structure SafeInAllWays (store : Store σ κ) (held : Catalogue) (supply : Supply) (state : σ) :
    Prop where
  bare : Safe store held supply state
  uncached : Safe (store.behind Cache.absent) held supply state
  unreachable : ∀ calls : Nat, Safe (store.cachedBy Cache.unreachable) held supply (state, calls)
  cached : ∀ lru : Lru, Coherent held lru.peek →
    Safe (store.cachedBy Lru.cache) held supply (state, lru)

/-- Wherever running the suite is safe because of what a store shows, it is so in all ways. -/
theorem Bench.safeInAllWays (bench : Bench σ κ)
    (quiet : ∀ user id held state, bench.shows held state → bench.scope (.read user id) state →
      (bench.store.complete (.read user id) state).2 = state)
    {held : Catalogue} {supply : Supply} {state : σ} (good : supply.Good suiteScript.uses)
    (unused : supply.Unused suiteScript.uses held) (shown : bench.shows held state)
    (within : bench.store.Within bench.scope (suiteScript.calls supply) state) :
    SafeInAllWays bench.store held supply state where
  bare := bench.safe good unused shown within
  uncached := bench.behindAbsent.safe good unused shown (within.behind_absent _)
  unreachable _ :=
    (bench.cachedBy Cache.forgetful_unreachable Cache.clears_unreachable).safe good unused
      ⟨shown, bench.own shown, Coherent.of_empty fun _ _ => rfl⟩
      (Store.Within.cachedBy bench.follows quiet _ _ shown within)
  cached _ coherent :=
    (bench.cachedBy Lru.forgetful Lru.clears).safe good unused ⟨shown, bench.own shown, coherent⟩
      (Store.Within.cachedBy bench.follows quiet _ _ shown within)

end Safety

/-! ## Stores that are in use -/

section InUse

variable {supply : Supply} (good : supply.Good suiteScript.uses)

include good

/-- Running the suite on a memory that others have filled is safe. -/
theorem safe_memory (requests : List Memory.Request) :
    let memory := Memory.afterAll requests {}
    supply.Unused suiteScript.uses memory.find? →
      SafeInAllWays Memory.store memory.find? supply memory := by
  intro memory unused
  obtain ⟨_, holds⟩ := Memory.holds_afterAll requests
  have filed : memory.Filed :=
    Memory.afterAll_keeps Memory.Filed (fun request _ => Memory.filed_attend request) requests
      Memory.filed_empty
  have quiet : ∀ user id held memory, Memory.Shows held memory → True →
      (Memory.store.complete (.read user id) memory).2 = memory := by
    intro user id _ memory _ _
    show (memory.serve (.read user id)).2 = memory
    rw [Memory.serve]
    cases memory.find? user id <;> rfl
  exact Memory.bench.safeInAllWays quiet good unused (holds.shows filed)
    (Store.within_true Memory.store _ _)

/-- Running the suite on a document file that others have filled is safe. -/
theorem safe_file (earlier pageSize capacity : Nat) (calls : List Call) :
    let env := (Lmdb.store earlier).after calls { capacity := capacity }
    Lmdb.Distinct (Call.namesOf (calls ++ suiteScript.calls supply)) →
      (Lmdb.store pageSize).Within Lmdb.HasRoom (suiteScript.calls supply) env →
        supply.Unused suiteScript.uses env.entries.held →
          SafeInAllWays (Lmdb.store pageSize) env.entries.held supply env := by
  intro env distinct room unused
  have known : ∀ call ∈ calls ++ suiteScript.calls supply, ∀ name ∈ call.names,
      name ∈ Call.namesOf (calls ++ suiteScript.calls supply) :=
    fun call member name used => ⟨call, member, used⟩
  have sound := Lmdb.sound_after distinct earlier capacity calls
    fun call member => known call (List.mem_append_left _ member)
  have free : env.readerHeld = false :=
    Store.after_keeps (fun env => env.readerHeld = false)
      (fun _ env (_ : True) same => (Lmdb.transact_readerHeld _ env).trans same) calls
      (fun _ _ => trivial) rfl
  exact (Lmdb.bench distinct pageSize).safeInAllWays
    (fun _ _ _ _ shown inScope => Service.complete_read_file shown distinct pageSize inScope.1)
    good unused ⟨sound, free, rfl⟩
    (room.also fun call member => known call (List.mem_append_right _ member))

end InUse

/-- **The suite can be run on a store that is in use.**  Whatever a memory or a document file has
come to hold, with any size of pages, room enough and no two names with the same digest, the suite
gets to its end, on the store itself and from behind no cache, a cache that is out of reach and one
in memory of any capacity with anything in it that the store has.  What was held before is given
before and afterwards.  All that it needs is that the next identifiers differ, are hexadecimal and
not in use, and that the time line does not end meanwhile. -/
theorem runAll_is_safe (supply : Supply) (good : supply.Good suiteScript.uses) :
    (∀ requests, let memory := Memory.afterAll requests {}
      supply.Unused suiteScript.uses memory.find? →
        SafeInAllWays Memory.store memory.find? supply memory) ∧
      ∀ earlier pageSize capacity calls,
        let env := (Lmdb.store earlier).after calls { capacity := capacity }
        Lmdb.Distinct (Call.namesOf (calls ++ suiteScript.calls supply)) →
          (Lmdb.store pageSize).Within Lmdb.HasRoom (suiteScript.calls supply) env →
            supply.Unused suiteScript.uses env.entries.held →
              SafeInAllWays (Lmdb.store pageSize) env.entries.held supply env :=
  ⟨safe_memory good, safe_file good⟩

/-- Two users have posts already.  The file has pages of one document each, and just the room that
is needed. -/
theorem runAll_is_safe_errands :
    let supply := Supply.starting .epoch
    let calls := errands.take 3
    let memory := Memory.afterAll (calls.map .call) {}
    let capacity := Lmdb.need (calls ++ suiteScript.calls supply) fun _ _ => none
    let env := (Lmdb.store 1).after calls { capacity := capacity }
    SafeInAllWays Memory.store memory.find? supply memory ∧
      SafeInAllWays (Lmdb.store 1) env.entries.held supply env := by
  intro supply calls memory capacity env
  have good : supply.Good suiteScript.uses := Supply.good_starting (by decide) (by decide)
  -- the users who have posts have short names
  have short : ∀ call ∈ calls, ∀ name ∈ call.names, name.toList.length < 32 := by decide
  have lodgers : ∀ pair ∈ memory.pairs, pair.1.toList.length < 32 := by decide
  have vacant : supply.Unused suiteScript.uses memory.find? := by
    refine Supply.unused_starting _ _ fun user id post found => ?_
    obtain ⟨_, holds⟩ := Memory.holds_afterAll (calls.map .call)
    exact lodgers _ ((holds.mem_pairs user id).2 (Option.isSome_of_eq_some found))
  have distinct : Lmdb.Distinct (Call.namesOf (calls ++ suiteScript.calls supply)) :=
    Lmdb.distinct_of_pairwise (by decide +kernel)
  have room : (Lmdb.store 1).Within Lmdb.HasRoom (suiteScript.calls supply) env := by
    have within := Lmdb.within_of_need distinct 1 (calls ++ suiteScript.calls supply)
      (Lmdb.shows_empty _ capacity) (fun call member name used => ⟨call, member, used⟩)
      (by show 0 + capacity ≤ capacity; omega)
    exact Store.within_after _ (by decide) within
  have vacant' : supply.Unused suiteScript.uses env.entries.held := by
    refine Supply.unused_starting _ _ fun user id post found => ?_
    have distinct' : Lmdb.Distinct (Call.namesOf calls) :=
      Lmdb.distinct_of_pairwise (by decide +kernel)
    have sound := Lmdb.sound_after distinct' 1 capacity calls
      fun call member name used => ⟨call, member, used⟩
    obtain ⟨⟨call, member, used⟩, -⟩ := sound.names_of_held found
    exact short call member user used
  have safe := runAll_is_safe supply good
  exact ⟨safe.1 (calls.map .call) vacant, safe.2 1 1 capacity calls distinct room vacant'⟩

end Conformance

end PostStore
