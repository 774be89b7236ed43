import Mathlib.Data.List.Forall2
import Mathlib.Data.List.Nodup
import PostStore.Proofs.Bindings
import PostStore.Proofs.Draining
import PostStore.Proofs.Healthy
import PostStore.Service.Posts
/-!
# Stores that agree with their catalogue

What a call gives when listings are read to their end is determined by the catalogue of the store,
but for the order of a listing.  A store that shows a catalogue and follows it from call to call
therefore agrees with every other one that does, and so with the store in memory.
-/

namespace PostStore

/-! ## Calls with their listings -/

/-- What comes of a call when a listing is read to its end. -/
abbrev Call.Outcome (call : Call) : Type := call.Answer (List Post)

section Serving

variable {σ κ : Type} (store : Store σ κ)

/-- Serves a call, and reads a listing to its end. -/
def Store.complete : (call : Call) → σ → call.Outcome × σ
  | .create user data fresh, state => store.serve (.create user data fresh) state
  | .read user id, state => store.serve (.read user id) state
  | .readAll user, state => Service.listAll store user state
  | .update user id data clock, state => store.serve (.update user id data clock) state
  | .delete user id, state => store.serve (.delete user id) state

/-- Serves a call to its end and puts the call beside what comes of it. -/
def Store.outcome (call : Call) (state : σ) : (Σ call : Call, call.Outcome) × σ :=
  (⟨call, (store.complete call state).1⟩, (store.complete call state).2)

/-- Whether every call of a run is in the scope of the store in the state that it meets. -/
def Store.Within (scope : Call → σ → Prop) : List Call → σ → Prop
  | [], _ => True
  | call :: rest, state => scope call state ∧ Within scope rest (store.complete call state).2

variable {store} in
/-- What holds of every call may be added to the scope. -/
theorem Store.Within.also {scope : Call → σ → Prop} {holds : Call → Prop} :
    ∀ {calls : List Call} {state : σ}, store.Within scope calls state →
      (∀ call ∈ calls, holds call) →
      store.Within (fun call state => holds call ∧ scope call state) calls state
  | [], _, _, _ => trivial
  | call :: _, _, within, all =>
    ⟨⟨all call List.mem_cons_self, within.1⟩,
      within.2.also fun other later => all other (List.mem_cons_of_mem call later)⟩

/-- Every run is in the scope of a store that excludes nothing. -/
theorem Store.within_true : ∀ (calls : List Call) (state : σ),
    store.Within (fun _ _ => True) calls state
  | [], _ => trivial
  | _ :: calls, _ => ⟨trivial, within_true calls _⟩

/-- What holds of every call may be the scope. -/
theorem Store.within_of_forall {holds : Call → Prop} : ∀ (calls : List Call) (state : σ),
    (∀ call ∈ calls, holds call) → store.Within (fun call _ => holds call) calls state
  | [], _, _ => trivial
  | call :: calls, _, all => ⟨all call List.mem_cons_self,
      within_of_forall calls _ fun other later => all other (List.mem_cons_of_mem call later)⟩

/-- A listing gives what its cursor has left. -/
theorem Service.listAll_of_collect {user : String} {state after final : σ} {cursor : κ}
    {posts : List Post} (opened : store.serve (.readAll user) state = (.ok cursor, after))
    (given : (store.feed.collect cursor after).1 = .ok posts)
    (ended : (store.feed.collect cursor after).2.2 = final) :
    Service.listAll store user state = (.ok posts, final) := by
  simp only [Service.listAll, opened, given, ended]

/-- A listing under way of what a catalogue holds for a user: from the cursor the posts are
delivered, each once, and the medium is as before when they have been. -/
structure Store.Lists (store : Store σ κ) (held : Catalogue) (user : String) (cursor : κ)
    (state : σ) (posts : List Post) : Prop where
  delivers : store.feed.Delivers cursor state posts state
  few : posts.length ≤ store.feed.pending cursor state
  once : posts.Nodup
  all : ∀ post, post ∈ posts ↔ held user post.id = some post

variable {store} in
/-- When a listing is begun, reading it to its end gives what it delivers. -/
theorem Store.Lists.listAll {held : Catalogue} {user : String} {cursor : κ} {state : σ}
    {posts : List Post} (lists : store.Lists held user cursor state posts)
    (opened : store.serve (.readAll user) state = (.ok cursor, state)) :
    Service.listAll store user state = (.ok posts, state) := by
  obtain ⟨given, ended⟩ := lists.delivers.collect lists.few
  exact Service.listAll_of_collect store opened given ended

end Serving

/-- The same, except that the posts of a listing may come in another order. -/
inductive Alike : (Σ call : Call, call.Outcome) → (Σ call : Call, call.Outcome) → Prop where
  | same (outcome : Σ call : Call, call.Outcome) : Alike outcome outcome
  | listing (user : String) {posts posts' : List Post} (reordered : posts.Perm posts') :
      Alike ⟨.readAll user, .ok posts⟩ ⟨.readAll user, .ok posts'⟩

namespace Catalogue

/-! ## What a catalogue determines -/

/-- Whether a catalogue gives an outcome.  A listing gives the posts of the user, each once. -/
def Gives (held : Catalogue) : (call : Call) → call.Outcome → Prop
  | .create user data fresh, outcome => outcome = .ok (Post.make user data fresh)
  | .read user id, outcome => outcome = held.lookup user id
  | .readAll user, outcome => ∃ posts : List Post, outcome = .ok posts ∧ posts.Nodup ∧
      ∀ post, post ∈ posts ↔ held user post.id = some post
  | .update user id data clock, outcome => outcome = held.change user id data clock
  | .delete _ _, outcome => outcome = .ok ()

/-- The catalogue after a call. -/
def after (held : Catalogue) : Call → Catalogue
  | .create user data fresh => held.file (Post.make user data fresh)
  | .read _ _ | .readAll _ => held
  | .update user id data clock => held.afterChange (held.change user id data clock)
  | .delete user id => held.drop user id

/-- What one catalogue gives is alike. -/
theorem Gives.alike {held : Catalogue} {call : Call} {outcome outcome' : call.Outcome}
    (given : held.Gives call outcome) (given' : held.Gives call outcome') :
    Alike ⟨call, outcome⟩ ⟨call, outcome'⟩ := by
  cases call with
  | readAll user =>
    obtain ⟨posts, rfl, once, all⟩ := given
    obtain ⟨posts', rfl, once', all'⟩ := given'
    exact .listing user ((List.perm_ext_iff_of_nodup once once').2 fun post =>
      (all post).trans (all' post).symm)
  | create => exact given.trans given'.symm ▸ .same _
  | read => exact given.trans given'.symm ▸ .same _
  | update => exact given.trans given'.symm ▸ .same _
  | delete => exact given.trans given'.symm ▸ .same _

/-- No catalogue gives that something is not a post. -/
theorem Gives.ne_decode {held : Catalogue} {call : Call} {outcome : call.Outcome}
    (given : held.Gives call outcome) (name reason : String) :
    outcome ≠ call.fail (.decode name reason) := by
  intro same
  cases call with
  | readAll user =>
    obtain ⟨posts, rfl, _⟩ := given
    cases same
  | create =>
    rw [given] at same
    cases same
  | read user id =>
    rw [given, Call.fail, lookup] at same
    split at same <;> cases same
  | update user id data clock =>
    rw [given, Call.fail, change] at same
    split at same
    · cases same
    · split at same <;> cases same
  | delete =>
    rw [given] at same
    cases same

end Catalogue

/-! ## Following a catalogue -/

section Following

variable {σ σ' κ κ' : Type} {store : Store σ κ} {store' : Store σ' κ'}
  {scope : Call → σ → Prop} {scope' : Call → σ' → Prop}
  {shows : Catalogue → σ → Prop} {shows' : Catalogue → σ' → Prop}

/-- A store whose state shows a catalogue gives what the catalogue gives, for the calls in its
scope, and then shows the catalogue after the call. -/
def Store.Follows (store : Store σ κ) (scope : Call → σ → Prop) (shows : Catalogue → σ → Prop) :
    Prop :=
  ∀ call held state, shows held state → scope call state →
    held.Gives call (store.complete call state).1 ∧
      shows (held.after call) (store.complete call state).2

/-- **Two stores that follow one catalogue give alike, call by call.** -/
theorem Store.Follows.alike (follows : store.Follows scope shows)
    (follows' : store'.Follows scope' shows') (calls : List Call) :
    ∀ {held : Catalogue} {state : σ} {state' : σ'}, shows held state → shows' held state' →
      store.Within scope calls state → store'.Within scope' calls state' →
      List.Forall₂ Alike (replies store.outcome calls state)
        (replies store'.outcome calls state') := by
  induction calls with
  | nil => exact fun _ _ _ _ => .nil
  | cons call calls ih =>
    intro held state state' shown shown' within within'
    obtain ⟨given, next⟩ := follows call held state shown within.1
    obtain ⟨given', next'⟩ := follows' call held state' shown' within'.1
    exact .cons (given.alike given') (ih next next' within.2 within'.2)

/-- A store that follows a catalogue never finds something that is not a post. -/
theorem Store.Follows.ne_decode (follows : store.Follows scope shows) (calls : List Call) :
    ∀ {held : Catalogue} {state : σ}, shows held state → store.Within scope calls state →
      ∀ reply ∈ replies store.outcome calls state, ∀ name reason,
        reply.2 ≠ reply.1.fail (.decode name reason) := by
  induction calls with
  | nil => exact fun _ _ _ member => nomatch member
  | cons call calls ih =>
    intro held state shown within reply member
    obtain ⟨given, next⟩ := follows call held state shown within.1
    rcases List.mem_cons.1 member with rfl | later
    · exact given.ne_decode
    · exact ih next within.2 reply later

end Following

/-- Posts of two users whose names serve as identifiers too: one is changed, listed and dropped. -/
def errands : List Call :=
  [.create "a" "tea" ⟨"a", .epoch⟩, .create "b" "coffee" ⟨"a", .epoch⟩,
    .create "a" "milk" ⟨"b", .epoch⟩, .update "a" "a" "more tea" .epoch, .readAll "a",
    .delete "a" "a", .read "a" "a", .readAll "b"]

/-! ## The store in memory -/

namespace Memory

/-- A memory shows a catalogue when lookups in it are those of the catalogue, each post is filed
under its own user and identifier, and each identifier of a user is bound once. -/
structure Shows (held : Catalogue) (memory : Memory) : Prop where
  find : memory.find? = held
  filed : memory.Filed
  once : ∀ user, (memory.posts user).Functional

theorem shows_empty : Shows (fun _ _ => none) {} :=
  ⟨rfl, filed_empty, fun _ => List.nodup_nil⟩

theorem Shows.insert {held : Catalogue} {memory : Memory} (shown : Shows held memory)
    (post : Post) : Shows (held.file post) (memory.insert post.user post.id post) where
  find := by rw [find?_insert_own, shown.find]
  filed := shown.filed.insert post
  once user := by
    rw [Memory.insert, posts_setPosts]
    split
    · exact (shown.once _).put _ _
    · exact shown.once user

/-- A change of a post files the changed post, if the catalogue gives one. -/
theorem Shows.update {held : Catalogue} {memory : Memory} (shown : Shows held memory)
    (user id data : String) (clock : ClockReading) :
    (serve (.update user id data clock) memory).1 = held.change user id data clock ∧
      Shows (held.afterChange (held.change user id data clock))
        (serve (.update user id data clock) memory).2 := by
  obtain ⟨answer, filed, after⟩ := serve_update shown.filed user id data clock
  rw [shown.find] at answer after
  refine ⟨answer, after, filed, ?_⟩
  cases found : memory.find? user id with
  | none => simpa only [serve, found] using shown.once
  | some post =>
    cases later : post.withData? data clock with
    | none => simpa only [serve, found, later] using shown.once
    | some changed =>
      simp only [serve, found, later]
      intro user'
      rw [Memory.insert, posts_setPosts]
      split
      · exact (shown.once _).put _ _
      · exact shown.once user'

theorem Shows.remove {held : Catalogue} {memory : Memory} (shown : Shows held memory)
    (user id : String) : Shows (held.drop user id) (memory.remove user id) where
  find := by rw [find?_remove_eq, shown.find]
  filed := shown.filed.remove user id
  once user' := by
    rw [Memory.remove, posts_setPosts]
    split
    · exact (shown.once _).erase _
    · exact shown.once user'

/-- The posts of a user are those that the catalogue holds, -/
theorem Shows.mem_posts {held : Catalogue} {memory : Memory} (shown : Shows held memory)
    (user : String) (post : Post) :
    post ∈ (memory.posts user).map Prod.snd ↔ held user post.id = some post := by
  rw [← shown.find, find?, ← (shown.once user).mem_iff, List.mem_map]
  constructor
  · rintro ⟨⟨id, post'⟩, bound, rfl⟩
    have found := (shown.once user).mem_iff.1 bound
    obtain ⟨-, rfl⟩ := Coordinator.owns_iff.1 (shown.filed user id post' found)
    exact bound
  · exact fun bound => ⟨_, bound, rfl⟩

/-- each once: the identifier is part of a post, so posts under different identifiers differ. -/
theorem Shows.nodup_posts {held : Catalogue} {memory : Memory} (shown : Shows held memory)
    (user : String) : ((memory.posts user).map Prod.snd).Nodup := by
  refine List.Nodup.map_on ?_ (List.Nodup.of_map _ (shown.once user))
  rintro ⟨id, post⟩ bound ⟨id', post'⟩ bound' (rfl : post = post')
  have own := shown.filed user id post ((shown.once user).mem_iff.1 bound)
  have own' := shown.filed user id' post ((shown.once user).mem_iff.1 bound')
  rw [← (Coordinator.owns_iff.1 own).2, ← (Coordinator.owns_iff.1 own').2]

/-- A listing delivers what the catalogue holds for the user. -/
theorem Shows.opens {held : Catalogue} {memory : Memory} (shown : Shows held memory)
    (user : String) :
    Memory.store.Lists held user (Snapshot.ofList ((memory.posts user).map Prod.snd)) memory
      ((memory.posts user).map Prod.snd) where
  delivers := Snapshot.delivers_ofList _ memory
  few := Nat.le_add_right _ _
  once := shown.nodup_posts user
  all := shown.mem_posts user

/-- **The store in memory follows its catalogue.** -/
theorem follows : Memory.store.Follows (fun _ _ => True) Shows := by
  intro call held memory shown _
  cases call with
  | create user data fresh => exact ⟨rfl, shown.insert (Post.make user data fresh)⟩
  | read user id =>
    obtain ⟨answer, same⟩ := healthy.read user id memory shown.filed
    rw [shown.find] at answer
    have still : (Memory.store.serve (.read user id) memory).2 = memory := by
      show (serve (.read user id) memory).2 = memory
      cases found : memory.find? user id <;> simp [serve, found]
    refine ⟨answer, ?_⟩
    show Shows held (Memory.store.serve (.read user id) memory).2
    rwa [still]
  | readAll user =>
    have lists := shown.opens user
    have listed := lists.listAll rfl
    refine ⟨⟨_, congrArg Prod.fst listed, lists.once, lists.all⟩, ?_⟩
    rw [Store.complete, listed]
    exact shown
  | update user id data clock => exact shown.update user id data clock
  | delete user id => exact ⟨rfl, shown.remove user id⟩

end Memory

end PostStore
