import PostStore.Cache.Absent
import PostStore.Proofs.Healthy
import PostStore.Proofs.Weather
/-!
# Invalidations that are lost

In front of a healthy store, the cache over a server in any weather can be noticed in one way only:
a change or removal takes effect in the store, a copy of the post is still in the server, and the
command that would take the copy out is refused.  From then on a reader gets the copy.  As long as
that does not happen, trouble with the cache shows up as a miss.
-/

namespace PostStore

/-! ## Changed posts differ -/

/-- The instant a microsecond later is a later one. -/
theorem Instant.lt_of_addMicro? {t later : Instant} (h : t.addMicro? = some later) : t < later := by
  simp only [addMicro?] at h
  rw [lt_def]
  split at h <;> split at h <;> have parts := ofParts?_eq_some h <;> omega

/-- A change is made later than the one before. -/
theorem Instant.lt_of_next? {previous clock t : Instant} (h : next? previous clock = some t) :
    previous < t := by
  obtain ⟨floor, step, same⟩ := Option.map_eq_some_iff.1 h
  have later := lt_of_addMicro? step
  split at same
  · rename_i clockLater
    rw [← same]
    rw [lt_def] at *
    omega
  · rw [← same]
    exact later

/-- A changed post is another post. -/
theorem Post.withData?_ne {post changed : Post} {data : String} {clock : Instant}
    (h : post.withData? data clock = some changed) : changed ≠ post := by
  rintro rfl
  obtain ⟨t, next, same⟩ := Option.map_eq_some_iff.1 h
  have later := Instant.lt_of_next? next
  rw [← same] at later
  simp only [Instant.lt_def] at later
  omega

namespace Redis

open Coordinator

variable {σ κ : Type}

/-- Whether a call changes a post in the store, or takes it away, while the command that would take
the copy out of the server is refused and a copy is there. -/
def Loses (store : Store σ κ) (setup : CacheSetup) (s : σ) (exposed : Exposed) : Call → Prop
  | .create user data fresh => ∃ post copy, (store.serve (.create user data fresh) s).1 = .ok post ∧
      exposed.refuses = true ∧ exposed.arriving.peek setup user post.id = some copy ∧
      owns user post.id copy = true ∧ copy ≠ post
  | .update user id data clock => ∃ post copy,
      (store.serve (.update user id data clock) s).1 = .ok post ∧ exposed.refuses = true ∧
      exposed.arriving.peek setup user id = some copy ∧ owns user id copy = true
  | .delete user id => ∃ copy, exposed.refuses = true ∧
      exposed.arriving.peek setup user id = some copy ∧ owns user id copy = true
  | .read .. | .readAll _ => False

section Runs

variable {store : Store σ κ} {sound : σ → Prop} {held : σ → Catalogue} {setup : CacheSetup} {s : σ}
  {exposed : Exposed} {counts : LookupCounts} {call : Call}

/-- The cache lets go of the copy of what a call changes unless the call loses that. -/
theorem settles_iff (healthy : store.Healthy sound held) (good : sound s) :
    Settles store (weatherCache setup) (weatherPeek setup) s (exposed, counts) call ↔
      ¬ Loses store setup s exposed call := by
  cases call with
  | create user data fresh =>
    have made := (healthy.create user data fresh s good).1
    have regular := Post.regular_make user data fresh
    simp only [Settles, Loses, made, Except.ok.injEq, forall_eq', clears_add_iff regular]
    grind
  | read user id => simp only [Settles, Loses, not_false_eq_true]
  | readAll user => simp only [Settles, Loses, not_false_eq_true]
  | update user id data clock =>
    simp only [Settles, Loses, clears_remove_iff]
    grind
  | delete user id => exact clears_remove_iff

/-- A call that loses the invalidation leaves a copy that the store does not hold. -/
theorem incoherent_of_loses (healthy : store.Healthy sound held) (good : sound s)
    (coherent : Coherent (held s) (exposed.server.peek setup))
    (loses : Loses store setup s exposed call) :
    ¬ Coherent
      (held ((store.cachedBy (weatherCache setup)).serve call (s, exposed, counts)).2.1)
      (weatherPeek setup
        ((store.cachedBy (weatherCache setup)).serve call (s, exposed, counts)).2.2) := by
  intro still
  cases call with
  | create user data fresh =>
    obtain ⟨post, copy, answer, refuses, there, own, other⟩ := loses
    obtain ⟨made, after⟩ := healthy.create user data fresh s good
    obtain rfl : Post.make user data fresh = post := Except.ok.inj (made.symm.trans answer)
    have left := peek_add setup exposed counts user (Post.make user data fresh).id
      (Post.regular_make user data fresh)
    rw [if_pos refuses, there] at left
    rcases served : store.serve (.create user data fresh) s with ⟨result, s'⟩
    rw [serve_create_cachedBy, served] at still
    rw [served] at after answer
    cases answer
    -- the store holds the new post now, and the copy is another
    have holds := still user _ copy left own
    rw [after] at holds
    exact other (Option.some.inj (holds.symm.trans (Catalogue.file_self _ _)))
  | read user id => exact loses
  | readAll user => exact loses
  | update user id data clock =>
    obtain ⟨post, copy, answer, refuses, there, own⟩ := loses
    obtain ⟨answered, after⟩ := healthy.update user id data clock s good
    have changed : (held s).change user id data clock = .ok post := answered.symm.trans answer
    have left := peek_remove setup exposed counts user id
    rw [if_pos refuses, there] at left
    rcases served : store.serve (.update user id data clock) s with ⟨result, s'⟩
    rw [serve_update_cachedBy, served] at still
    rw [served] at after answer
    cases answer
    -- the store holds the changed post now, and the copy is of the post as it was
    have holds := still user id copy left own
    obtain ⟨old, before, later⟩ := Catalogue.change_eq_ok changed
    have same : copy = old := Option.some.inj
      ((coherent user id copy (Exposed.peek_of_arriving there) own).symm.trans before)
    obtain ⟨hu, hi⟩ := healthy.changed_own good changed
    rw [after, changed, Catalogue.afterChange, Catalogue.file, if_pos ⟨hu.symm, hi.symm⟩] at holds
    exact Post.withData?_ne later ((Option.some.inj holds).trans same)
  | delete user id =>
    obtain ⟨copy, refuses, there, own⟩ := loses
    have left := peek_remove setup exposed counts user id
    rw [if_pos refuses, there] at left
    rw [serve_delete_cachedBy] at still
    have holds := still user id copy left own
    rw [(healthy.delete user id s good).2, Catalogue.drop_self] at holds
    cases holds

/-- A call that does not lose the invalidation answers as the store does, and leaves no copy that
the store does not hold. -/
theorem agrees_of_not_loses (counts : LookupCounts) (healthy : store.Healthy sound held)
    (regular : ∀ s, sound s → (held s).Regular) (good : sound s) {s' : σ}
    (alike : Store.Healthy.Same sound held s s')
    (coherent : Coherent (held s) (exposed.server.peek setup))
    (single : ∀ user, call ≠ .readAll user) (settles : ¬ Loses store setup s exposed call) :
    let step := (store.cachedBy (weatherCache setup)).serve call (s, exposed, counts)
    step.1 = (store.serve call s').1 ∧
      Store.Healthy.Same sound held step.2.1 (store.serve call s').2 ∧
      Coherent (held step.2.1) (weatherPeek setup step.2.2) :=
  serve_cachedBy_agrees healthy.faithful healthy.bisimilar (weatherCache_forgetful setup)
    regular single good alike coherent ((settles_iff healthy good).2 settles)

/-! ## Reads that nothing disturbs -/

/-- The server with nothing but calm weather ahead. -/
def Exposed.calm (exposed : Exposed) : Exposed := ⟨exposed.server, fun _ => {}⟩

/-- Whether everyone who reads now, with nothing to disturb it, gets what the store gives. -/
def Unnoticed (store : Store σ κ) (setup : CacheSetup) (state : σ × Exposed × LookupCounts) :
    Prop :=
  ∀ user id, ((store.cachedBy (weatherCache setup)).serve (.read user id)
      (state.1, state.2.1.calm, state.2.2)).1 = (store.serve (.read user id) state.1).1

/-- In calm weather a lookup gives what the cache holds. -/
theorem get_calm (user id : String) :
    ((weatherCache setup).serve (.get user id) (exposed.calm, counts)).1 =
      weatherPeek setup (exposed.calm, counts) user id := by
  cases there : weatherPeek setup (exposed.calm, counts) user id with
  | some post =>
    obtain ⟨document, filed, decodes⟩ := Server.peek_eq_some.1 there
    have found := Exposed.get_of_entry exposed.calm rfl filed decodes
    simp only [cacheOver]
    rw [run_get, found]
  | none =>
    cases answer : ((weatherCache setup).serve (.get user id) (exposed.calm, counts)).1 with
    | none => rfl
    | some post =>
      have held := (weatherCache_forgetful setup).get user id _ post answer
      rw [there] at held
      cases held

/-- The cache is not noticed just when it holds no copy that the store does not hold. -/
theorem unnoticed_iff (healthy : store.Healthy sound held) (good : sound s) :
    Unnoticed store setup (s, exposed, counts) ↔ Coherent (held s) (exposed.server.peek setup) :=
  forall_congr' fun user => forall_congr' fun id =>
    serve_read_agrees_iff healthy.faithful good (get_calm user id)

end Runs

/-! ## Calls one after the other -/

/-- The store behind the cache, from a server and its weather. -/
abbrev weatherStore (store : Store σ κ) (setup : CacheSetup) :
    Store (σ × Exposed × LookupCounts) κ :=
  store.cachedBy (weatherCache setup)

section Runs

variable {store : Store σ κ} {sound : σ → Prop} {held : σ → Catalogue} {setup : CacheSetup}

/-- Calls leave the store sound. -/
theorem sound_after (healthy : store.Healthy sound held) (calls : List Call) :
    ∀ {state : σ × Exposed × LookupCounts}, sound state.1 →
      sound ((weatherStore store setup).after calls state).1 := by
  induction calls with
  | nil => exact fun good => good
  | cons call rest ih =>
    exact fun good => ih (run_keeps store (weatherCache setup) healthy.keeps_sound
      (Coordinator.perform call) good)

/-- As long as no call loses an invalidation, no copy is left that the store does not hold. -/
theorem coherent_after (healthy : store.Healthy sound held)
    (regular : ∀ s, sound s → (held s).Regular) (calls : List Call) :
    ∀ {state : σ × Exposed × LookupCounts}, sound state.1 →
      Coherent (held state.1) (state.2.1.server.peek setup) →
      (∀ call ∈ calls, ∀ user, call ≠ .readAll user) →
      (∀ before call rest, calls = before ++ call :: rest →
        ¬ Loses store setup ((weatherStore store setup).after before state).1
          ((weatherStore store setup).after before state).2.1 call) →
      Coherent (held ((weatherStore store setup).after calls state).1)
        (((weatherStore store setup).after calls state).2.1.server.peek setup) := by
  induction calls with
  | nil => exact fun _ coherent _ _ => coherent
  | cons call rest ih =>
    rintro ⟨s, exposed, counts⟩ good coherent single settles
    obtain ⟨_, ⟨still, _⟩, kept⟩ := agrees_of_not_loses counts healthy regular good
      ⟨good, good, rfl⟩ coherent (single call List.mem_cons_self) (settles [] call rest rfl)
    refine ih still kept (fun call member => single call (List.mem_cons_of_mem _ member)) ?_
    intro before next later split
    exact settles (call :: before) next later (by rw [split]; rfl)

/-- As long as no call loses an invalidation, all calls are answered as without a cache. -/
theorem replies_of_not_loses (healthy : store.Healthy sound held)
    (regular : ∀ s, sound s → (held s).Regular) (calls : List Call) :
    ∀ {state : σ × Exposed × LookupCounts} {s' : σ}, sound state.1 →
      Store.Healthy.Same sound held state.1 s' →
      Coherent (held state.1) (state.2.1.server.peek setup) →
      (∀ call ∈ calls, ∀ user, call ≠ .readAll user) →
      (∀ before call rest, calls = before ++ call :: rest →
        ¬ Loses store setup ((weatherStore store setup).after before state).1
          ((weatherStore store setup).after before state).2.1 call) →
      replies (weatherStore store setup).reply calls state =
        replies (store.behind Cache.absent).reply calls s' := by
  induction calls with
  | nil => exact fun _ _ _ _ _ => rfl
  | cons call rest ih =>
    rintro ⟨s, exposed, counts⟩ s' good alike coherent single settles
    obtain ⟨answer, next, kept⟩ := agrees_of_not_loses counts healthy regular good alike
      coherent (single call List.mem_cons_self) (settles [] call rest rfl)
    rw [replies, replies]
    simp only [Store.reply, serve_behind_absent, answer]
    congr 1
    refine ih next.1 next kept (fun call member => single call (List.mem_cons_of_mem _ member)) ?_
    intro before next later split
    exact settles (call :: before) next later (by rw [split]; rfl)

/-- **In all weathers, the cache over a server is not noticed just when no invalidation is lost.**
Over a healthy store with regular posts and from entries that are absent or no posts, all who read
at any moment get what the store gives if and only if no call loses an invalidation; and then all
calls are answered as without a cache. -/
theorem unnoticed_iff_none_lost (healthy : store.Healthy sound held) (setup : CacheSetup) {s : σ}
    (good : sound s) (regular : (held s).Regular) (exposed : Exposed) (counts : LookupCounts)
    (blank : ∀ user id, exposed.server.peek setup user id = none) (calls : List Call)
    (single : ∀ call ∈ calls, ∀ user, call ≠ .readAll user) :
    ((∀ before rest, calls = before ++ rest →
        Unnoticed store setup ((weatherStore store setup).after before (s, exposed, counts))) ↔
      ∀ before call rest, calls = before ++ call :: rest →
        ¬ Loses store setup ((weatherStore store setup).after before (s, exposed, counts)).1
          ((weatherStore store setup).after before (s, exposed, counts)).2.1 call) ∧
    ((∀ before call rest, calls = before ++ call :: rest →
        ¬ Loses store setup ((weatherStore store setup).after before (s, exposed, counts)).1
          ((weatherStore store setup).after before (s, exposed, counts)).2.1 call) →
      replies (weatherStore store setup).reply calls (s, exposed, counts) =
        replies (store.behind Cache.absent).reply calls s) := by
  have start : Coherent (held s) (exposed.server.peek setup) := Coherent.of_empty blank
  -- the calls keep the posts regular, so that they are read back from the entries of the cache
  obtain ⟨sound, healthy, good, regular⟩ : ∃ sound' : σ → Prop, store.Healthy sound' held ∧
      sound' s ∧ ∀ s, sound' s → (held s).Regular :=
    ⟨_, healthy.regular, ⟨good, regular⟩, fun _ good => good.2⟩
  refine ⟨⟨?_, ?_⟩, replies_of_not_loses healthy regular calls good ⟨good, good, rfl⟩ start single⟩
  · -- a call that loses an invalidation takes coherence with it, and the next reader could tell
    intro unnoticed before call rest split loses
    have good_before : sound ((weatherStore store setup).after before (s, exposed, counts)).1 :=
      sound_after healthy before good
    have coherent := (unnoticed_iff healthy good_before).1 (unnoticed before _ split)
    have good_after :
        sound ((weatherStore store setup).after (before ++ [call]) (s, exposed, counts)).1 :=
      sound_after healthy (before ++ [call]) good
    have still := (unnoticed_iff healthy good_after).1
      (unnoticed (before ++ [call]) rest (by rw [split, List.append_assoc]; rfl))
    rw [Store.after_append] at still
    exact incoherent_of_loses healthy good_before coherent loses still
  · -- what has been called so far has lost nothing, and so the two are coherent still
    intro settles before rest split
    have good_before : sound ((weatherStore store setup).after before (s, exposed, counts)).1 :=
      sound_after healthy before good
    refine (unnoticed_iff healthy good_before).2 ?_
    refine coherent_after healthy regular before good start ?_ ?_
    · exact fun call member => single call (by rw [split]; exact List.mem_append_left _ member)
    · intro earlier call later here
      exact settles earlier call (later ++ rest) (by rw [split, here, List.append_assoc]; rfl)

end Runs

/-- Nothing is lost when the server refuses every command from the start. -/
theorem unnoticed_iff_none_lost_outage :
    let outage : Exposed := ⟨{}, fun _ => { mishap := .refused "ERR down" }⟩
    let calls : List Call := [.create "u" "text" ⟨"p", default⟩, .read "u" "p"]
    (∀ before rest, calls = before ++ rest →
        Unnoticed Memory.store {} ((weatherStore Memory.store {}).after before ({}, outage, {}))) ∧
      replies (weatherStore Memory.store {}).reply calls ({}, outage, {}) =
        replies (Memory.store.behind Cache.absent).reply calls {} := by
  intro outage calls
  have blank : ∀ user id, outage.server.peek {} user id = none := fun _ _ => rfl
  have single : ∀ call ∈ calls, ∀ user, call ≠ .readAll user := by
    intro call member user
    simp only [calls, List.mem_cons, List.not_mem_nil, or_false] at member
    rcases member with rfl | rfl <;> nofun
  have none_lost : ∀ before call rest, calls = before ++ call :: rest →
      ¬ Loses Memory.store {} ((weatherStore Memory.store {}).after before ({}, outage, {})).1
        ((weatherStore Memory.store {}).after before ({}, outage, {})).2.1 call := by
    intro before call rest split loses
    -- the server has never taken a copy, and a lookup has nothing to lose
    match before with
    | [] =>
      obtain ⟨rfl, _⟩ := List.cons.inj split
      obtain ⟨post, copy, _, _, there, _⟩ := loses
      cases there
    | [_] =>
      obtain ⟨rfl, _⟩ := List.cons.inj (List.cons.inj split).2
      exact loses
    | _ :: _ :: more =>
      have none : [] = more ++ call :: rest := (List.cons.inj (List.cons.inj split).2).2
      exact absurd none.symm (by simp)
  obtain ⟨noticed, alike⟩ := unnoticed_iff_none_lost Memory.healthy {} Memory.filed_empty
    Catalogue.regular_empty outage {}
    blank calls single
  exact ⟨noticed.2 none_lost, alike none_lost⟩

/-- A reader gets the post as it was before a change when the server has refused to let go of it. -/
theorem lost_invalidation_noticed :
    ¬ ∀ (setup : CacheSetup) (exposed : Exposed) (calls : List Call),
    (∀ user id, exposed.server.peek setup user id = none) →
    (∀ call ∈ calls, ∀ user, call ≠ .readAll user) →
      replies (weatherStore Memory.store setup).reply calls ({}, exposed, {}) =
        replies (Memory.store.behind Cache.absent).reply calls {} := by
  intro alike
  let refusing : Exposed := ⟨{}, fun n => if n = 1 then { mishap := .refused "ERR down" } else {}⟩
  let first : Post := Post.make "u" "first" ⟨"p", default⟩
  let before : List Call := [.create "u" "first" ⟨"p", default⟩, .update "u" "p" "second" default]
  let state := (weatherStore Memory.store {}).after before ({}, refusing, {})
  have single : ∀ call ∈ before ++ [.read "u" "p"], ∀ user, call ≠ .readAll user := by
    intro call member user
    simp only [before, List.mem_append, List.mem_cons, List.not_mem_nil, or_false] at member
    rcases member with (rfl | rfl) | rfl <;> nofun
  have same := alike {} refusing (before ++ [.read "u" "p"]) (fun _ _ => rfl) single
  have last := (List.cons.inj (List.cons.inj (List.cons.inj same).2).2).1
  have answers := eq_of_heq (Sigma.mk.inj last).2
  -- the copy is still there when the reader comes
  have there : state.2.1.arriving.strings.get? (CacheSetup.entryKey {} "u" "p") =
      some first.toDocument := rfl
  have hit : ((weatherCache {}).serve (.get "u" "p") state.2).1 = some first := by
    have found := Exposed.get_of_entry state.2.1 rfl there
      (Post.ofDocument_toDocument (Post.regular_make _ _ _))
    simp only [cacheOver]
    rw [run_get, found]
  have cached := congrArg Prod.fst
    (serve_read_cachedBy_hit Memory.store (weatherCache {}) state.1 state.2 hit rfl)
  have given := cached.symm.trans answers
  have stored : ((Memory.store.behind Cache.absent).serve (.read "u" "p")
      ((Memory.store.behind Cache.absent).after before {})).1.toOption.map Post.data =
        some "second" := rfl
  have texts := congrArg (fun answer => (Except.toOption answer).map Post.data) given
  exact absurd (texts.trans stored) (by decide)

end Redis

end PostStore
