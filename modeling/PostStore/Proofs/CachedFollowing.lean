import PostStore.Proofs.Agreement
import PostStore.Proofs.LruTransparency
/-!
# Following a catalogue from behind a cache

A store with a cache in front of it does to its medium what the bare store does, except that a
lookup may be spared.  So as long as the cache lets go of what it is told to, what is given is what
the bare store would give: a store that follows its catalogue follows it from behind the cache, and
one that follows it or fails does so too.
-/

namespace PostStore

/-! ## What may come of a call -/

namespace Catalogue

/-- Whether each post is held under its own user and identifier. -/
def Own (held : Catalogue) : Prop :=
  ∀ user id post, held user id = some post → post.user = user ∧ post.id = id

/-- Whether an outcome is what the catalogue gives, and another catalogue the one after the call; or
the call has failed, and the catalogue is as it was. -/
def Allows (held : Catalogue) (call : Call) (outcome : call.Outcome) (next : Catalogue) : Prop :=
  held.Gives call outcome ∧ next = held.after call ∨
    (∃ e : StoreError, outcome = .error e) ∧ next = held

variable {held : Catalogue}

theorem own_empty : Own fun _ _ => none := fun _ _ _ found => nomatch found

/-- The post that a change gives has the identity of the one that was changed. -/
theorem Own.change (own : held.Own) {user id data : String} {clock : ClockReading} {changed : Post}
    (given : held.change user id data clock = .ok changed) :
    changed.user = user ∧ changed.id = id := by
  obtain ⟨post, found, later⟩ := change_eq_ok given
  obtain ⟨rfl, rfl⟩ := own user id post found
  obtain ⟨hu, hi, -, -⟩ := Post.withData?_identity later
  exact ⟨hu, hi⟩

theorem Own.file (own : held.Own) (post : Post) : (held.file post).Own := by
  intro user id other found
  by_cases here : user = post.user ∧ id = post.id
  · obtain ⟨rfl, rfl⟩ := here
    rw [file_self] at found
    obtain rfl := Option.some.inj found
    exact ⟨rfl, rfl⟩
  · rw [file_ne here] at found
    exact own user id other found

theorem Own.drop (own : held.Own) (user id : String) : (held.drop user id).Own := by
  intro u i post found
  by_cases here : u = user ∧ i = id
  · obtain ⟨rfl, rfl⟩ := here
    rw [drop_self] at found
    cases found
  · rw [drop_ne here] at found
    exact own u i post found

/-- After every call each post is still held under its own user and identifier. -/
theorem Own.after (own : held.Own) (call : Call) : (held.after call).Own := by
  cases call with
  | create user data fresh => exact own.file _
  | read user id => exact own
  | readAll user => exact own
  | update user id data clock =>
    show (held.afterChange (held.change user id data clock)).Own
    cases held.change user id data clock with
    | error e => exact own
    | ok changed => exact own.file changed
  | delete user id => exact own.drop user id

theorem Allows.own {call : Call} {outcome : call.Outcome} {next : Catalogue}
    (allowed : held.Allows call outcome next) (own : held.Own) : next.Own := by
  rcases allowed with ⟨-, rfl⟩ | ⟨-, rfl⟩
  · exact own.after call
  · exact own

end Catalogue

/-! ## Reading a listing in a larger medium -/

section Serving

variable {σ τ κ : Type} (store : Store σ κ) (cache : Cache τ)

/-- A feed of the first of two media does not see the second. -/
theorem Feed.run_first {α : Type} (d : Dialogue FeedAsk FeedAsk.Reply α) (t : τ) :
    ∀ (cursor : κ) (s : σ),
      d.run (store.within (Part.first (τ := τ))).feed.serve (cursor, s, t) =
        ((d.run store.feed.serve (cursor, s)).1, (d.run store.feed.serve (cursor, s)).2.1,
          (d.run store.feed.serve (cursor, s)).2.2, t) := by
  induction d with
  | done value => exact fun _ _ => rfl
  | ask question next ih =>
    intro cursor s
    cases question with
    | next => exact ih _ _ _
    | get => exact ih _ _ _
    | close => exact ih _ _ _

/-- A listing never sees the cache. -/
theorem listAll_cachedBy (user : String) (s : σ) (t : τ) :
    Service.listAll (store.cachedBy cache) user (s, t) =
      ((Service.listAll store user s).1, (Service.listAll store user s).2, t) := by
  unfold Service.listAll
  rw [serve_readAll_cachedBy]
  rcases store.serve (.readAll user) s with ⟨e | cursor, s'⟩
  · rfl
  · have read := Feed.run_first store (collect (store.feed.pending cursor s' + 1)) t cursor s'
    have collected : (store.cachedBy cache).feed.collect cursor (s', t) =
        ((store.feed.collect cursor s').1, (store.feed.collect cursor s').2.1,
          (store.feed.collect cursor s').2.2, t) := read
    simp only [collected]

/-- Whether a call is a lookup that is spared the store, since the cache has the post. -/
def Cache.Spares (cache : Cache τ) (t : τ) : (call : Call) → call.Outcome → Prop
  | .read user id, outcome => ∃ post, (cache.serve (.get user id) t).1 = some post ∧
      Coordinator.owns user id post = true ∧ outcome = .ok post
  | .create .., _ | .readAll _, _ | .update .., _ | .delete .., _ => False

/-- From behind a cache a call does to the store what it does to the bare store, or is spared it. -/
theorem complete_cachedBy (call : Call) (s : σ) (t : τ) :
    ((store.cachedBy cache).complete call (s, t)).1 = (store.complete call s).1 ∧
        ((store.cachedBy cache).complete call (s, t)).2.1 = (store.complete call s).2 ∨
      cache.Spares t call ((store.cachedBy cache).complete call (s, t)).1 ∧
        ((store.cachedBy cache).complete call (s, t)).2.1 = s := by
  cases call with
  | create user data fresh =>
    left
    simp only [Store.complete, serve_create_cachedBy]
    rcases store.serve (.create user data fresh) s with ⟨e | post, s'⟩ <;> exact ⟨rfl, rfl⟩
  | read user id =>
    by_cases hit : ∃ post, (cache.serve (.get user id) t).1 = some post ∧
        Coordinator.owns user id post = true
    · obtain ⟨post, found, own⟩ := hit
      right
      show cache.Spares t (.read user id) ((store.cachedBy cache).serve (.read user id) (s, t)).1 ∧
        ((store.cachedBy cache).serve (.read user id) (s, t)).2.1 = s
      rw [serve_read_cachedBy_hit store cache s t found own]
      exact ⟨⟨post, found, own, rfl⟩, rfl⟩
    · left
      have miss : ∀ post, (cache.serve (.get user id) t).1 = some post →
          ¬ Coordinator.owns user id post = true := fun post found own => hit ⟨post, found, own⟩
      simp only [Store.complete, serve_read_cachedBy_miss store cache s t miss, run_readThrough]
      rcases store.serve (.read user id) s with ⟨e | post, s'⟩ <;> exact ⟨rfl, rfl⟩
  | readAll user =>
    left
    show (Service.listAll (store.cachedBy cache) user (s, t)).1 = (Service.listAll store user s).1 ∧
      (Service.listAll (store.cachedBy cache) user (s, t)).2.1 = (Service.listAll store user s).2
    rw [listAll_cachedBy]
    exact ⟨rfl, rfl⟩
  | update user id data clock =>
    left
    simp only [Store.complete, serve_update_cachedBy]
    rcases store.serve (.update user id data clock) s with ⟨e | post, s'⟩ <;> exact ⟨rfl, rfl⟩
  | delete user id => exact .inl ⟨rfl, rfl⟩

end Serving

/-! ## The cache keeps up -/

section Coherence

variable {σ τ κ : Type} {store : Store σ κ} {cache : Cache τ} {peek : τ → Catalogue}
  {held next : Catalogue} {s : σ} {t : τ}

/-- A post that is made is new to the others, so what they find of their own was there before. -/
theorem Coherent.create (forgetful : cache.Forgetful peek)
    (clears : ∀ t call, cache.Clears peek t call) (coherent : Coherent held (peek t))
    {user data : String} {fresh : Fresh}
    (allowed : held.Allows (.create user data fresh) (store.serve (.create user data fresh) s).1
      next) :
    Coherent next (peek ((store.cachedBy cache).serve (.create user data fresh) (s, t)).2.2) := by
  rw [serve_create_cachedBy]
  rcases served : store.serve (.create user data fresh) s with ⟨e | post, s'⟩ <;>
    rw [served] at allowed
  · rcases allowed with ⟨given, -⟩ | ⟨-, rfl⟩
    · cases given
    · exact coherent
  · obtain ⟨given, rfl⟩ | ⟨⟨e, failed⟩, -⟩ := allowed
    · obtain rfl := Except.ok.inj given
      refine coherent.change (fun u i other => Catalogue.file_ne other) ?_ ?_
      · intro u i post' other found owned
        rcases forgetful.add _ _ _ _ _ _ _ trivial found with rfl | old
        · obtain ⟨hu, hi⟩ := Coordinator.owns_iff.1 owned
          exact absurd ⟨hu.symm, hi.symm⟩ other
        · exact old
      · intro post' found owned
        rw [clears t (.add user _ _) post' found owned]
        exact Catalogue.file_self held _
    · cases failed

/-- A post that is looked up is found as it stands, in the cache or behind it. -/
theorem Coherent.read (forgetful : cache.Forgetful peek) (own : held.Own)
    (coherent : Coherent held (peek t)) {user id : String}
    (allowed : held.Allows (.read user id) (store.serve (.read user id) s).1 next) :
    Coherent next (peek ((store.cachedBy cache).serve (.read user id) (s, t)).2.2) := by
  have looked := coherent.get forgetful user id
  obtain ⟨given, rfl⟩ : (∀ post, (store.serve (.read user id) s).1 = .ok post →
      held user id = some post) ∧ next = held := by
    rcases allowed with ⟨given, rfl⟩ | ⟨⟨e, failed⟩, rfl⟩
    · refine ⟨fun post found => ?_, rfl⟩
      exact Catalogue.lookup_eq_ok.1 (Eq.trans (Eq.symm given) found)
    · refine ⟨fun post found => ?_, rfl⟩
      cases failed.symm.trans found
  by_cases hit : ∃ post, (cache.serve (.get user id) t).1 = some post ∧
      Coordinator.owns user id post = true
  · obtain ⟨post, found, owned⟩ := hit
    rw [serve_read_cachedBy_hit store cache s t found owned]
    exact looked
  · have miss : ∀ post, (cache.serve (.get user id) t).1 = some post →
        ¬ Coordinator.owns user id post = true := fun post found owned => hit ⟨post, found, owned⟩
    rw [serve_read_cachedBy_miss store cache s t miss, run_readThrough]
    rcases served : store.serve (.read user id) s with ⟨e | post, s'⟩ <;> rw [served] at given
    · exact looked
    · have current := given post rfl
      exact looked.add forgetful trivial current (Coordinator.owns_iff.2 (own user id post current))

/-- When a post is dropped from the cache, the cache is coherent with any change of that post. -/
theorem Coherent.remove (forgetful : cache.Forgetful peek)
    (clears : ∀ t call, cache.Clears peek t call) (coherent : Coherent held (peek t))
    {user id : String} (elsewhere : ∀ u i, ¬ (u = user ∧ i = id) → next u i = held u i) :
    Coherent next (peek (cache.serve (.remove user id) t).2) := by
  refine coherent.change elsewhere ?_ ?_
  · exact fun u i post' _ found _ => forgetful.remove user id t u i post' found
  · exact fun post' found owned => absurd owned (clears t (.remove user id) post' found)

/-- A post that is changed is dropped from the cache. -/
theorem Coherent.update (forgetful : cache.Forgetful peek)
    (clears : ∀ t call, cache.Clears peek t call) (own : held.Own)
    (coherent : Coherent held (peek t)) {user id data : String} {clock : ClockReading}
    (allowed : held.Allows (.update user id data clock)
      (store.serve (.update user id data clock) s).1 next) :
    Coherent next
      (peek ((store.cachedBy cache).serve (.update user id data clock) (s, t)).2.2) := by
  rw [serve_update_cachedBy]
  rcases served : store.serve (.update user id data clock) s with ⟨e | post, s'⟩ <;>
    rw [served] at allowed
  · rcases allowed with ⟨given, rfl⟩ | ⟨-, rfl⟩
    · show Coherent (held.afterChange (held.change user id data clock)) (peek t)
      rw [← show Except.error e = held.change user id data clock from given]
      exact coherent
    · exact coherent
  · rcases allowed with ⟨given, rfl⟩ | ⟨⟨e, failed⟩, -⟩
    · obtain ⟨hu, hi⟩ := own.change (Eq.symm given)
      have after : held.after (.update user id data clock) = held.file post := by
        show held.afterChange (held.change user id data clock) = held.file post
        rw [← show Except.ok post = held.change user id data clock from given]
        rfl
      rw [after]
      apply coherent.remove forgetful clears
      intro u i other
      exact Catalogue.file_ne fun same => other ⟨same.1.trans hu, same.2.trans hi⟩
    · cases failed

/-- Whatever may come of a call, the cache is coherent with the catalogue afterwards. -/
theorem Coherent.complete (forgetful : cache.Forgetful peek)
    (clears : ∀ t call, cache.Clears peek t call) (own : held.Own)
    (coherent : Coherent held (peek t)) {call : Call}
    (allowed : held.Allows call (store.complete call s).1 next) :
    Coherent next (peek ((store.cachedBy cache).complete call (s, t)).2.2) := by
  cases call with
  | create user data fresh => exact coherent.create forgetful clears allowed
  | read user id => exact coherent.read forgetful own allowed
  | readAll user =>
    show Coherent next (peek (Service.listAll (store.cachedBy cache) user (s, t)).2.2)
    rw [listAll_cachedBy]
    rcases allowed with ⟨-, rfl⟩ | ⟨-, rfl⟩ <;> exact coherent
  | update user id data clock => exact coherent.update forgetful clears own allowed
  | delete user id =>
    apply coherent.remove forgetful clears
    intro u i other
    rcases allowed with ⟨-, rfl⟩ | ⟨-, rfl⟩
    · exact Catalogue.drop_ne other
    · rfl

/-- A spared lookup gives what the catalogue gives, and needs no change. -/
theorem Coherent.gives_of_spares (forgetful : cache.Forgetful peek)
    (coherent : Coherent held (peek t)) {call : Call} {outcome : call.Outcome}
    (spares : cache.Spares t call outcome) : held.Gives call outcome ∧ held.after call = held := by
  cases call with
  | read user id =>
    obtain ⟨post, found, owned, rfl⟩ := spares
    have current := coherent user id post (forgetful.get user id t post found) owned
    exact ⟨(Catalogue.lookup_eq_ok.2 current).symm, rfl⟩
  | create => cases spares
  | readAll => cases spares
  | update => cases spares
  | delete => cases spares

end Coherence

/-! ## Following from behind the cache -/

section Following

variable {σ τ κ : Type} {store : Store σ κ} {cache : Cache τ} {peek : τ → Catalogue}
  {scope : Call → σ → Prop} {shows : Catalogue → σ → Prop}

/-- A store whose state shows a catalogue gives what the catalogue gives and then shows the
catalogue after the call, or it fails and shows the same, for the calls in its scope. -/
def Store.Heeds (store : Store σ κ) (scope : Call → σ → Prop) (shows : Catalogue → σ → Prop) :
    Prop :=
  ∀ call held state, shows held state → scope call state →
    ∃ next, held.Allows call (store.complete call state).1 next ∧
      shows next (store.complete call state).2

/-- What follows its catalogue does not even fail. -/
theorem Store.Follows.heeds (follows : store.Follows scope shows) : store.Heeds scope shows := by
  intro call held state shown inScope
  obtain ⟨given, after⟩ := follows call held state shown inScope
  exact ⟨held.after call, .inl ⟨given, rfl⟩, after⟩

/-- A store and a cache show a catalogue when the store does and the cache is coherent with it. -/
def ShowsBehind (shows : Catalogue → σ → Prop) (peek : τ → Catalogue) (held : Catalogue)
    (medium : σ × τ) : Prop :=
  shows held medium.1 ∧ held.Own ∧ Coherent held (peek medium.2)

/-- **A store that follows its catalogue follows it from behind a cache** that holds only what it
was given and lets go of what it is told to. -/
theorem Store.Follows.cachedBy (follows : store.Follows scope shows)
    (forgetful : cache.Forgetful peek) (clears : ∀ t call, cache.Clears peek t call) :
    (store.cachedBy cache).Follows (fun call medium => scope call medium.1)
      (ShowsBehind shows peek) := by
  rintro call held ⟨s, t⟩ ⟨shown, own, coherent⟩ inScope
  obtain ⟨given, after⟩ := follows call held s shown inScope
  have still := coherent.complete forgetful clears own
    (show held.Allows call (store.complete call s).1 _ from .inl ⟨given, rfl⟩)
  rcases complete_cachedBy store cache call s t with ⟨same, state⟩ | ⟨spares, state⟩
  · exact ⟨same ▸ given, state ▸ after, own.after call, still⟩
  · obtain ⟨given', unchanged⟩ := coherent.gives_of_spares forgetful spares
    refine ⟨given', ?_, own.after call, still⟩
    rw [state, unchanged]
    exact shown

/-- A store that follows its catalogue or fails does so from behind such a cache. -/
theorem Store.Heeds.cachedBy (heeds : store.Heeds scope shows)
    (forgetful : cache.Forgetful peek) (clears : ∀ t call, cache.Clears peek t call) :
    (store.cachedBy cache).Heeds (fun call medium => scope call medium.1)
      (ShowsBehind shows peek) := by
  rintro call held ⟨s, t⟩ ⟨shown, own, coherent⟩ inScope
  obtain ⟨next, allowed, after⟩ := heeds call held s shown inScope
  have still := coherent.complete forgetful clears own allowed
  rcases complete_cachedBy store cache call s t with ⟨same, state⟩ | ⟨spares, state⟩
  · exact ⟨next, same ▸ allowed, state ▸ after, allowed.own own, still⟩
  · obtain ⟨given, unchanged⟩ := coherent.gives_of_spares forgetful spares
    obtain rfl : next = held := by
      rcases allowed with ⟨-, after⟩ | ⟨-, same⟩
      · exact after.trans unchanged
      · exact same
    refine ⟨next, .inl ⟨given, unchanged.symm⟩, ?_, own, still⟩
    rw [state]
    exact shown

/-- Without a cache nothing is different. -/
theorem complete_behind_absent (call : Call) (state : σ) :
    (store.behind Cache.absent).complete call state = store.complete call state := by
  cases call with
  | create => exact serve_behind_absent store _ state
  | read => exact serve_behind_absent store _ state
  | readAll user =>
    show Service.listAll (store.behind Cache.absent) user state = Service.listAll store user state
    unfold Service.listAll
    rw [serve_behind_absent]
    rfl
  | update => exact serve_behind_absent store _ state
  | delete => exact serve_behind_absent store _ state

theorem Store.Follows.behind_absent (follows : store.Follows scope shows) :
    (store.behind Cache.absent).Follows scope shows := by
  intro call held state shown inScope
  rw [complete_behind_absent]
  exact follows call held state shown inScope

/-! ## Scopes -/

theorem Store.Within.behind_absent (calls : List Call) : ∀ {state : σ},
    store.Within scope calls state → (store.behind Cache.absent).Within scope calls state := by
  induction calls with
  | nil => exact fun _ => trivial
  | cons call calls ih =>
    intro state within
    refine ⟨within.1, ih ?_⟩
    rw [complete_behind_absent]
    exact within.2

/-- When lookups leave the store as it is, a run behind a cache meets the same states. -/
theorem Store.Within.cachedBy (follows : store.Follows scope shows)
    (still : ∀ user id held state, shows held state → scope (.read user id) state →
      (store.complete (.read user id) state).2 = state) (cache : Cache τ) (calls : List Call) :
    ∀ {held : Catalogue} {state : σ} {t : τ}, shows held state → store.Within scope calls state →
      (store.cachedBy cache).Within (fun call medium => scope call medium.1) calls (state, t) := by
  induction calls with
  | nil => exact fun _ _ => trivial
  | cons call calls ih =>
    intro held state t shown within
    obtain ⟨-, after⟩ := follows call held state shown within.1
    have same : ((store.cachedBy cache).complete call (state, t)).2.1 =
        (store.complete call state).2 := by
      rcases complete_cachedBy store cache call state t with ⟨-, same⟩ | ⟨spares, same⟩
      · exact same
      · cases call with
        | read user id => exact same.trans (still user id held state shown within.1).symm
        | create => cases spares
        | readAll => cases spares
        | update => cases spares
        | delete => cases spares
    refine ⟨within.1, ih (same ▸ after) ?_⟩
    rw [same]
    exact within.2

end Following

end PostStore
