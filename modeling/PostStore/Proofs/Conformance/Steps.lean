import PostStore.Conformance
import PostStore.Proofs.CachedFollowing
import PostStore.Proofs.Conformance.Users
/-!
# Checks step by step

What a step of a check comes to is read off the catalogue that the store shows.  A check goes on as
long as every call and every comparison comes out as it must, and it ends well when it gets to its
end.  Meanwhile the catalogue changes under the users that the check has made, and nowhere else.
-/

namespace PostStore

/-! ## Calls about one user -/

/-- The user that a call is about. -/
def Call.user : Call → String
  | .create user _ _ | .read user _ | .readAll user | .update user _ _ _ | .delete user _ => user

namespace Catalogue

variable {held : Catalogue} {user : String}

theorem file_other {post : Post} (other : user ≠ post.user) : held.file post user = held user :=
  funext fun _ => file_ne fun same => other same.1

theorem drop_other {user' : String} (id : String) (other : user ≠ user') :
    held.drop user' id user = held user :=
  funext fun _ => drop_ne fun same => other same.1

/-- A call changes nothing that is held of other users. -/
theorem Own.after_other (own : held.Own) {call : Call} (other : user ≠ call.user) :
    held.after call user = held user := by
  cases call with
  | create user' data fresh => exact file_other other
  | read => rfl
  | readAll => rfl
  | update user' id' data clock =>
    show held.afterChange (held.change user' id' data clock) user = held user
    cases given : held.change user' id' data clock with
    | error e => rfl
    | ok changed =>
      obtain ⟨rfl, -⟩ := own.change given
      exact file_other other
  | delete user' id' => exact drop_other id' other

end Catalogue

namespace Conformance

/-! ## Stores under test -/

/-- A store that shows a catalogue and follows it, for the calls in its scope.  It begins a listing
without touching its medium, advances without touching it too, and reaches nothing any more when a
listing has been given up.  What it holds can be asked for. -/
structure Bench (ω κ : Type) where
  store : Store ω κ
  scope : Call → ω → Prop
  shows : Catalogue → ω → Prop
  follows : store.Follows scope shows
  own : ∀ {held state}, shows held state → held.Own
  opens : ∀ {held state} (user : String), shows held state → scope (.readAll user) state →
    ∃ cursor posts, store.serve (.readAll user) state = (.ok cursor, state) ∧
      store.Lists held user cursor state posts
  still : ∀ {held state} (cursor : κ), shows held state →
    (store.feed.next cursor state).2.2 = state
  closed : ∀ (cursor : κ) (state : ω), (store.feed.next (store.feed.close cursor) state).1 = false
  known : ∀ {held state user id post}, shows held state → held user id = some post →
    scope (.read user id) state ∧ scope (.readAll user) state

/-! ## Ending well -/

section Ensures

variable {ω α β ε : Type} {w : ω × Supply} {Q : α → ω × Supply → Prop}

/-- Whether a check gets to its end, with a value and a world as told. -/
def Ensures (check : Check ω α) (w : ω × Supply) (Q : α → ω × Supply → Prop) : Prop :=
  ∃ value after, check.run.run w = (some value, after) ∧ Q value after

/-- One check after the other. -/
theorem Ensures.bind {first : Check ω β} {next : β → Check ω α} {P : β → ω × Supply → Prop}
    (ensured : Ensures first w P)
    (onward : ∀ value after, P value after → Ensures (next value) after Q) :
    Ensures (first >>= next) w Q := by
  obtain ⟨value, after, run, holds⟩ := ensured
  obtain ⟨last, final, run', ends⟩ := onward value after holds
  refine ⟨last, final, ?_, ends⟩
  rw [OptionT.run_bind, Option.elimM, StateT.run_bind, run]
  exact run'

theorem Ensures.imp {check : Check ω α} {P : α → ω × Supply → Prop} (ensured : Ensures check w P)
    (weaker : ∀ value after, P value after → Q value after) : Ensures check w Q := by
  obtain ⟨value, after, run, holds⟩ := ensured
  exact ⟨value, after, run, weaker value after holds⟩

theorem ensures_pure {value : α} (holds : Q value w) : Ensures (pure value : Check ω α) w Q :=
  ⟨value, w, rfl, holds⟩

theorem ensures_takeFresh {Q : Fresh → ω × Supply → Prop} (holds : Q w.2.take.1 (w.1, w.2.take.2)) :
    Ensures takeFresh w Q :=
  ⟨_, _, rfl, holds⟩

theorem ensures_step {change : ω → α × ω} (holds : Q (change w.1).1 ((change w.1).2, w.2)) :
    Ensures (step change) w Q :=
  ⟨_, _, rfl, holds⟩

theorem ensures_expect {holds : Bool} {Q : Unit → ω × Supply → Prop} (so : holds = true)
    (ends : Q () w) : Ensures (expect holds) w Q := by
  rw [so]
  exact ⟨(), w, rfl, ends⟩

theorem ensures_unwrap {result : Except ε α} {value : α} (success : result = .ok value)
    (ends : Q value w) : Ensures (unwrap result) w Q := by
  rw [success]
  exact ⟨value, w, rfl, ends⟩

/-- A comparison that holds lets the check go on. -/
theorem ensures_expect_bind {holds : Bool} {next : Unit → Check ω α} (so : holds = true)
    (onward : Ensures (next ()) w Q) : Ensures (expect holds >>= next) w Q :=
  (ensures_expect (Q := fun _ after => after = w) so rfl).bind fun _ _ same => same ▸ onward

theorem ensures_assert_bind {assertion : Except String Unit} {next : Unit → Check ω α}
    (so : assertion = .ok ()) (onward : Ensures (next ()) w Q) :
    Ensures (assert assertion >>= next) w Q :=
  (ensures_unwrap (Q := fun _ after => after = w) so rfl).bind fun _ _ same => same ▸ onward

/-- A call that must succeed does. -/
theorem ensures_call {change : ω → Except ε α × ω} {value : α}
    (success : (change w.1).1 = .ok value) (ends : Q value ((change w.1).2, w.2)) :
    Ensures (do unwrap (← step change)) w Q := by
  refine (ensures_step (Q := fun answer after =>
    answer = .ok value ∧ after = ((change w.1).2, w.2)) ⟨success, rfl⟩).bind ?_
  rintro _ _ ⟨rfl, rfl⟩
  exact ensures_unwrap rfl ends

/-- A call that must miss does. -/
theorem ensures_miss {change : ω → Except StoreError Post × ω} {user id : String}
    {Q : Unit → ω × Supply → Prop} (missing : (change w.1).1 = .error (.notFound user id))
    (ends : Q () ((change w.1).2, w.2)) :
    Ensures (do assert (Assertion.notFound (fun _ : Post => "") (← step change))) w Q := by
  refine (ensures_step (Q := fun answer after =>
    answer = .error (.notFound user id) ∧ after = ((change w.1).2, w.2)) ⟨missing, rfl⟩).bind ?_
  rintro _ _ ⟨rfl, rfl⟩
  exact ensures_unwrap rfl ends

theorem ensures_next {κ : Type} {store : Store ω κ} {cursor cursor' : κ} {more : Bool} {state : ω}
    {Q : Bool × κ → ω × Supply → Prop}
    (reached : store.feed.next cursor w.1 = (more, cursor', state))
    (ends : Q (more, cursor') (state, w.2)) : Ensures (next store cursor) w Q := by
  refine ensures_step ?_
  rw [reached]
  exact ends

/-- Taking all elements takes what is delivered, and comes to the end. -/
theorem ensures_takeAll {κ : Type} {store : Store ω κ} {cursor : κ} {state final : ω}
    {posts : List Post} (delivers : store.feed.Delivers cursor state posts final) :
    ∀ {limit : Nat} {supply : Supply}, posts.length < limit →
      Ensures (takeAll store limit cursor) (state, supply) fun given after =>
        given.1 = posts ∧ store.feed.Ended given.2 final ∧ after = (final, supply) := by
  induction delivers with
  | nothing stop ended =>
    intro limit supply enough
    obtain ⟨limit, rfl⟩ := Nat.exists_eq_succ_of_ne_zero (Nat.ne_zero_of_lt enough)
    refine (ensures_next (Q := fun step after => step = (false, _) ∧ after = (_, supply)) stop
      ⟨rfl, rfl⟩).bind ?_
    rintro _ _ ⟨rfl, rfl⟩
    exact ensures_pure ⟨rfl, ended, rfl⟩
  | @post cursor cursor' state state' final post posts reached taken rest ih =>
    intro limit supply enough
    obtain ⟨limit, rfl⟩ := Nat.exists_eq_succ_of_ne_zero (Nat.ne_zero_of_lt enough)
    refine (ensures_next (Q := fun step after => step = (true, _) ∧ after = (_, supply)) reached
      ⟨rfl, rfl⟩).bind ?_
    rintro _ _ ⟨rfl, rfl⟩
    refine (ensures_unwrap (Q := fun value after => value = post ∧ after = (state', supply)) taken
      ⟨rfl, rfl⟩).bind ?_
    rintro _ _ ⟨rfl, rfl⟩
    refine (ih (Nat.lt_of_succ_lt_succ enough)).bind ?_
    rintro ⟨_, last⟩ _ ⟨rfl, ended, rfl⟩
    exact ensures_pure ⟨rfl, ended, rfl⟩

end Ensures

/-- A post passes for itself. -/
theorem samePost_self (post : Post) : Assertion.samePost post post = .ok () := by
  simp only [Assertion.samePost, Assertion.equal, if_true]
  rfl

/-! ## Where a check stands -/

namespace Bench

variable {ω κ : Type} (bench : Bench ω κ)

/-- A listing that was given up reaches nothing. -/
theorem next_close {held : Catalogue} {state : ω} (cursor : κ) (shown : bench.shows held state) :
    ∃ cursor', bench.store.feed.next (bench.store.feed.close cursor) state =
      (false, cursor', state) :=
  ⟨_, Prod.ext (bench.closed cursor state)
    (Prod.ext rfl (bench.still (bench.store.feed.close cursor) shown))⟩

/-- Where a check stands that has taken some items from its supply and has some calls still to make:
the store shows a catalogue, the calls are in its scope, and the catalogue is the one from before
for all users that are not named with an identifier from the supply. -/
structure Stands (supply : Supply) (base held : Catalogue) (calls : List Call) (count : Nat)
    (w : ω × Supply) : Prop where
  shown : bench.shows held w.1
  within : bench.store.Within bench.scope calls w.1
  supplied : w.2 = supply.skip count
  elsewhere : ∀ user, ¬ supply.Names count user → held user = base user

namespace Stands

variable {bench} {supply : Supply} {base held : Catalogue} {call : Call} {calls : List Call}
  {count : Nat} {w : ω × Supply} {user id data : String} {post : Post}

/-- Taking an item from the supply. -/
theorem takeFresh (stands : bench.Stands supply base held calls count w) :
    Ensures takeFresh w fun fresh after => fresh = supply.item count ∧
      bench.Stands supply base held calls (count + 1) after := by
  obtain ⟨shown, within, supplied, elsewhere⟩ := stands
  refine ensures_takeFresh ⟨?_, shown, within, ?_, fun user other => ?_⟩
  · rw [supplied]
    rfl
  · rw [supplied]
    rfl
  · exact elsewhere user (mt (Supply.Names.mono · (Nat.le_succ count)) other)

theorem uniqueUser (stands : bench.Stands supply base held calls count w) (label : String) :
    Ensures (uniqueUser label) w fun user after =>
      user = supply.user label count ∧
        bench.Stands supply base held calls (count + 1) after := by
  refine stands.takeFresh.bind ?_
  rintro _ w ⟨rfl, stands⟩
  exact ensures_pure ⟨rfl, stands⟩

/-- Making the next of the calls, about a user of the check. -/
theorem makes (stands : bench.Stands supply base held (call :: calls) count w)
    (mine : supply.Names count call.user) :
    held.Gives call (bench.store.complete call w.1).1 ∧
      bench.Stands supply base (held.after call) calls count
        ((bench.store.complete call w.1).2, w.2) := by
  obtain ⟨given, after⟩ := bench.follows call held w.1 stands.shown stands.within.1
  refine ⟨given, after, stands.within.2, stands.supplied, fun user other => ?_⟩
  have others : user ≠ call.user := fun same => other (by rwa [same])
  rw [(bench.own stands.shown).after_other others]
  exact stands.elsewhere user other

/-! ### Calls on single posts -/

theorem create
    (stands : bench.Stands supply base held (.create user data (supply.item count) :: calls)
      count w) (mine : supply.Names count user) :
    Ensures (create bench.store user data) w fun post after =>
      post = Post.make user data (supply.item count) ∧
        bench.Stands supply base (held.file post) calls (count + 1) after := by
  refine stands.takeFresh.bind ?_
  rintro _ w ⟨rfl, stands⟩
  obtain ⟨given, made⟩ := stands.makes (mine.mono (Nat.le_succ count))
  exact ensures_call given ⟨rfl, made⟩

theorem read (stands : bench.Stands supply base held (.read user id :: calls) count w)
    (mine : supply.Names count user) (found : held user id = some post) :
    Ensures (read bench.store user id) w fun given after =>
      given = post ∧ bench.Stands supply base held calls count after := by
  obtain ⟨given, made⟩ := stands.makes mine
  exact ensures_call (Eq.trans given (Catalogue.lookup_eq_ok.2 found)) ⟨rfl, made⟩

theorem absentOnRead (stands : bench.Stands supply base held (.read user id :: calls) count w)
    (mine : supply.Names count user) (missing : held user id = none) :
    Ensures (absentOnRead bench.store user id) w fun _ after =>
      bench.Stands supply base held calls count after := by
  have fails : held.lookup user id = .error (.notFound user id) := by
    rw [Catalogue.lookup, missing]
  obtain ⟨given, made⟩ := stands.makes mine
  exact ensures_miss (Eq.trans given fails) made

/-- A change gives the changed post. -/
theorem update
    (stands : bench.Stands supply base held
      (.update user id data (supply.item count).clock :: calls) count w)
    (mine : supply.Names count user) {changed : Post}
    (given : held.change user id data (supply.item count).clock = .ok changed) :
    Ensures (update bench.store user id data) w fun post after =>
      post = changed ∧ bench.Stands supply base (held.file changed) calls (count + 1) after := by
  refine stands.takeFresh.bind ?_
  rintro _ w ⟨rfl, stands⟩
  obtain ⟨answer, made⟩ := stands.makes (mine.mono (Nat.le_succ count))
  rw [Catalogue.after, given] at made
  exact ensures_call (Eq.trans answer given) ⟨rfl, made⟩

theorem absentOnUpdate
    (stands : bench.Stands supply base held
      (.update user id "x" (supply.item count).clock :: calls) count w)
    (mine : supply.Names count user) (missing : held user id = none) :
    Ensures (absentOnUpdate bench.store user id) w fun _ after =>
      bench.Stands supply base held calls (count + 1) after := by
  have fails : held.change user id "x" (supply.item count).clock = .error (.notFound user id) := by
    rw [Catalogue.change, missing]
  refine stands.takeFresh.bind ?_
  rintro _ w ⟨rfl, stands⟩
  obtain ⟨answer, made⟩ := stands.makes (mine.mono (Nat.le_succ count))
  rw [Catalogue.after, fails] at made
  exact ensures_miss (Eq.trans answer fails) made

theorem delete (stands : bench.Stands supply base held (.delete user id :: calls) count w)
    (mine : supply.Names count user) :
    Ensures (delete bench.store user id) w fun _ after =>
      bench.Stands supply base (held.drop user id) calls count after := by
  obtain ⟨given, made⟩ := stands.makes mine
  exact ensures_call given made

/-! ### Listings -/

theorem startListing (stands : bench.Stands supply base held (.readAll user :: calls) count w) :
    Ensures (startListing bench.store user) w fun cursor after =>
      (∃ posts, bench.store.Lists held user cursor after.1 posts) ∧
        bench.Stands supply base held calls count after := by
  obtain ⟨shown, within, supplied, elsewhere⟩ := stands
  obtain ⟨cursor, posts, opened, lists⟩ := bench.opens user shown within.1
  have still : (bench.store.complete (.readAll user) w.1).2 = w.1 :=
    congrArg Prod.snd (lists.listAll opened)
  have rest := within.2
  rw [still] at rest
  refine ensures_call (congrArg Prod.fst opened) ?_
  rw [congrArg Prod.snd opened]
  exact ⟨⟨posts, lists⟩, shown, rest, supplied, elsewhere⟩

theorem listAll (stands : bench.Stands supply base held (.readAll user :: calls) count w) :
    Ensures (listAll bench.store user) w fun posts after =>
      (posts.Nodup ∧ ∀ post, post ∈ posts ↔ held user post.id = some post) ∧
        bench.Stands supply base held calls count after := by
  refine stands.startListing.bind ?_
  rintro cursor w ⟨⟨posts, lists⟩, stands⟩
  obtain ⟨given, ended⟩ := lists.delivers.collect lists.few
  refine ensures_call given ?_
  rw [show ((bench.store.feed.collect cursor w.1).2.2, w.2) = w from Prod.ext ended rfl]
  exact ⟨⟨lists.once, lists.all⟩, stands⟩

end Stands

end Bench

end Conformance

end PostStore
