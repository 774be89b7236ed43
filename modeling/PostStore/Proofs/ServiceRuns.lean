import PostStore.Proofs.CachedFollowing
import PostStore.Proofs.Lmdb.Agreement
/-!
# The service, from end to end

What clients are told, call by call, is judged by what they were told before: a post stands from the
answer to its creation to the answer to its removal, with the text last written.  Over a store that
follows its catalogue the texts that stand are those of the catalogue, and every answer is right.
-/

namespace PostStore

/-! ## Answers -/

namespace Call

/-- Whether a user or an identifier that a call takes is empty. -/
def Incomplete : Call → Prop
  | .create user _ _ | .readAll user => user = ""
  | .read user id | .update user id _ _ | .delete user id => user = "" ∨ id = ""

instance : DecidablePred Incomplete := fun call => by
  cases call <;> unfold Incomplete <;> infer_instance

/-- What the clock reads at a call, if it is read. -/
def clock? : Call → Option Instant
  | .create _ _ fresh => some fresh.clock
  | .update _ _ _ clock => some clock
  | .read .. | .readAll _ | .delete .. => none

end Call

namespace Service

/-- What a call shows when it succeeds. -/
abbrev View : Call → Type
  | .create .. => Created
  | .read .. => Shown
  | .readAll _ => Listing
  | .update .. => Updated
  | .delete .. => Unit

/-- The answer to a call. -/
abbrev Answer (call : Call) : Type := Except Refusal (View call)

/-- A call with its answer. -/
abbrev Exchange : Type := Σ call : Call, Answer call

section Serving

variable {ω κ : Type} (store : Store ω κ)

/-- Serves a call. -/
def serve : (call : Call) → ω → Answer call × ω
  | .create user data fresh => create store user data fresh
  | .read user id => read store user id
  | .readAll user => readAll store user
  | .update user id data clock => update store user id data clock
  | .delete user id => delete store user id

/-- Serves a call and puts the call beside the answer. -/
def exchange (call : Call) (state : ω) : Exchange × ω :=
  (⟨call, (serve store call state).1⟩, (serve store call state).2)

end Serving

/-- What comes of a call of the store, as it is shown. -/
def view : (call : Call) → call.Outcome → Answer call
  | .create .., .ok post => .ok ⟨post.id, post.createdAt⟩
  | .read .., .ok post => .ok ⟨post⟩
  | .readAll _, .ok posts => .ok ⟨posts.map Shown.mk⟩
  | .update .., .ok post => .ok ⟨post.id, post.updatedAt⟩
  | .delete .., .ok _ => .ok ()
  | _, .error e => .error (.ofStore e)

/-! ## What stands -/

/-- The texts of posts under their users and identifiers. -/
abbrev Texts := String → String → Option String

/-- The texts with another one, or none, under a user and an identifier. -/
def Texts.write (texts : Texts) (user id : String) (text : Option String) : Texts := fun u i =>
  if u = user ∧ i = id then text else texts u i

/-- The texts after an exchange. -/
def Texts.after (texts : Texts) : Exchange → Texts
  | ⟨.create user data _, .ok created⟩ => texts.write user created.id (some data)
  | ⟨.update user id data _, .ok _⟩ => texts.write user id (some data)
  | ⟨.delete user id, .ok _⟩ => texts.write user id none
  | _ => texts

/-- The texts that stand after some exchanges. -/
def standing (exchanges : List Exchange) : Texts := exchanges.foldl Texts.after fun _ _ => none

/-! ## Right answers -/

/-- Whether a call is about a post that must stand and does not. -/
def Misses (texts : Texts) : Call → Prop
  | .read user id | .update user id _ _ => texts user id = none
  | .create .. | .readAll _ | .delete .. => False

/-- What is right to answer while some texts stand. -/
structure Right (texts : Texts) (exchange : Exchange) : Prop where
  /-- The service never says that it is at fault. -/
  calm : ∀ error, exchange.2 = .error (.reply error) → error.code ≠ .internal
  /-- It says that the client is when an argument is empty, or the post does not stand. -/
  invalid : (∃ error, exchange.2 = .error (.reply error) ∧ error.code = .invalidArgument) ↔
    exchange.1.Incomplete ∨ Misses texts exchange.1
  /-- It has no answer only for a change of a post that stands. -/
  answered : exchange.2 = .error .unanswered →
    ∃ user id data clock, exchange.1 = .update user id data clock ∧ texts user id ≠ none
  /-- A post is shown with the text that stands. -/
  read : ∀ user id shown, exchange = ⟨.read user id, .ok shown⟩ →
    shown.post.user = user ∧ shown.post.id = id ∧ texts user id = some shown.post.data
  /-- A listing shows the user's posts that stand, each once, with the texts that stand. -/
  listing : ∀ user listing, exchange = ⟨.readAll user, .ok listing⟩ →
    (∀ shown ∈ listing.posts, shown.post.user = user) ∧
      (listing.posts.map fun shown => shown.post.id).Nodup ∧
      ∀ id data, texts user id = some data ↔
        ∃ shown ∈ listing.posts, shown.post.id = id ∧ shown.post.data = data

/-- Whether all answers of a run are right; and no call is left without an answer, if all readings
of the clock leave room on the time line for as many seconds as there are calls. -/
structure AllRight (exchanges : List Exchange) : Prop where
  right : ∀ before exchange after, exchanges = before ++ exchange :: after →
    Right (standing before) exchange
  answered : ∀ latest : Int, latest + exchanges.length < Instant.lastSecond →
    (∀ exchange ∈ exchanges, ∀ clock ∈ exchange.1.clock?, clock.seconds ≤ latest) →
      ∀ exchange ∈ exchanges, exchange.2 ≠ .error .unanswered

/-! ## The service over a store -/

section Steps

variable {ω κ : Type} (store : Store ω κ)

theorem require_of_ne {field value : String} (h : value ≠ "") : require field value = .ok () :=
  if_neg h

/-- What an argument that must not be empty is told. -/
theorem require_empty (field : String) : require field "" =
    .error (.reply (.invalidArgument (field ++ " must not be empty"))) := if_pos rfl

theorem requireBoth_of_ne {user id : String} (hu : user ≠ "") (hi : id ≠ "") :
    requireBoth user id = .ok () := by
  rw [requireBoth, require_of_ne hu, require_of_ne hi]
  rfl

theorem requireBoth_empty {user id : String} (h : user = "" ∨ id = "") :
    ∃ message, requireBoth user id = .error (.reply (.invalidArgument message)) := by
  by_cases hu : user = ""
  · subst hu
    rw [requireBoth, require_empty]
    exact ⟨_, rfl⟩
  · obtain rfl := h.resolve_left hu
    rw [requireBoth, require_of_ne hu]
    show ∃ message, require _ "" = .error (.reply (.invalidArgument message))
    rw [require_empty]
    exact ⟨_, rfl⟩

theorem guarded_error {α : Type} {check : Except Refusal Unit} {refusal : Refusal}
    (refused : check = .error refusal) (step : ω → Except Refusal α × ω) (state : ω) :
    guarded check step state = (.error refusal, state) := by
  rw [refused]
  rfl

theorem guarded_ok {α : Type} {check : Except Refusal Unit} (passed : check = .ok ())
    (step : ω → Except Refusal α × ω) (state : ω) : guarded check step state = step state := by
  rw [passed]
  rfl

/-- An incomplete call is refused, and the store is not asked. -/
theorem serve_of_incomplete {call : Call} (incomplete : call.Incomplete) (state : ω) :
    ∃ message, serve store call state = (.error (.reply (.invalidArgument message)), state) := by
  cases call with
  | create user data fresh =>
    obtain rfl : user = "" := incomplete
    exact ⟨_, rfl⟩
  | readAll user =>
    obtain rfl : user = "" := incomplete
    exact ⟨_, rfl⟩
  | read user id =>
    obtain ⟨message, refused⟩ := requireBoth_empty incomplete
    exact ⟨message, guarded_error refused _ state⟩
  | update user id data clock =>
    obtain ⟨message, refused⟩ := requireBoth_empty incomplete
    exact ⟨message, guarded_error refused _ state⟩
  | delete user id =>
    obtain ⟨message, refused⟩ := requireBoth_empty incomplete
    exact ⟨message, guarded_error refused _ state⟩

/-- Any other call is passed on, and what comes of it is shown. -/
theorem serve_of_complete {call : Call} (complete : ¬ call.Incomplete) (state : ω) :
    serve store call state =
      (view call (store.complete call state).1, (store.complete call state).2) := by
  cases call with
  | create user data fresh =>
    rw [serve, create, guarded_ok (require_of_ne complete), present, Store.complete]
    rcases store.serve (.create user data fresh) state with ⟨e | post, s⟩ <;> rfl
  | readAll user =>
    rw [serve, readAll, guarded_ok (require_of_ne complete), present, Store.complete]
    rcases listAll store user state with ⟨e | posts, s⟩ <;> rfl
  | read user id =>
    obtain ⟨hu, hi⟩ := not_or.1 complete
    rw [serve, read, guarded_ok (requireBoth_of_ne hu hi), present, Store.complete]
    rcases store.serve (.read user id) state with ⟨e | post, s⟩ <;> rfl
  | update user id data clock =>
    obtain ⟨hu, hi⟩ := not_or.1 complete
    rw [serve, update, guarded_ok (requireBoth_of_ne hu hi), present, Store.complete]
    rcases store.serve (.update user id data clock) state with ⟨e | post, s⟩ <;> rfl
  | delete user id =>
    obtain ⟨hu, hi⟩ := not_or.1 complete
    rw [serve, delete, guarded_ok (requireBoth_of_ne hu hi), present, Store.complete]
    rcases store.serve (.delete user id) state with ⟨e | done, s⟩ <;> rfl

end Steps

/-! ## What the catalogue makes right -/

end Service

namespace Catalogue

/-- The texts of the posts that are held. -/
def texts (held : Catalogue) : Service.Texts := fun user id => (held user id).map Post.data

/-- Whether every post was last changed no later than in a second. -/
def Until (held : Catalogue) (second : Int) : Prop :=
  ∀ user id post, held user id = some post → post.updatedAt.seconds ≤ second

variable {held : Catalogue}

theorem texts_file (post : Post) :
    (held.file post).texts = held.texts.write post.user post.id (some post.data) := by
  funext u i
  by_cases here : u = post.user ∧ i = post.id
  · obtain ⟨rfl, rfl⟩ := here
    simp [texts, Service.Texts.write, file_self]
  · simp only [texts, Service.Texts.write, file_ne here, if_neg here]

theorem texts_drop (user id : String) :
    (held.drop user id).texts = held.texts.write user id none := by
  funext u i
  by_cases here : u = user ∧ i = id
  · obtain ⟨rfl, rfl⟩ := here
    simp [texts, Service.Texts.write, drop_self]
  · simp only [texts, Service.Texts.write, drop_ne here, if_neg here]

theorem texts_eq_none {user id : String} : held.texts user id = none ↔ held user id = none :=
  Option.map_eq_none_iff

theorem texts_eq_some {user id data : String} :
    held.texts user id = some data ↔ ∃ post, held user id = some post ∧ post.data = data :=
  Option.map_eq_some_iff

end Catalogue

namespace Instant

/-- Before the last second there is a later instant, within a second. -/
theorem exists_addMicro? {t : Instant} (room : t.seconds < lastSecond) :
    ∃ later, t.addMicro? = some later ∧ later.seconds ≤ t.seconds + 1 := by
  have bounded := t.bounded
  have fine := t.fine
  have parts : ∀ seconds nanos, (firstSecond ≤ seconds ∧ seconds ≤ lastSecond) →
      nanos < 2000000000 → seconds ≤ t.seconds + 1 →
      ∃ later, ofParts? seconds nanos = some later ∧ later.seconds ≤ t.seconds + 1 :=
    fun seconds nanos inside small near =>
      ⟨⟨seconds, nanos, inside, small⟩, dif_pos ⟨inside, small⟩, near⟩
  simp only [addMicro?]
  split <;> split <;> apply parts <;> omega

/-- Before the last second a change has a time, in the second of the clock or within a second. -/
theorem exists_next? {previous : Instant} (room : previous.seconds < lastSecond) (clock : Instant) :
    ∃ t, next? previous clock = some t := by
  obtain ⟨floor, step, -⟩ := exists_addMicro? room
  exact ⟨_, congrArg _ step⟩

/-- The time of a change is in the second of the clock, or within a second after the last change. -/
theorem seconds_le_of_next? {previous clock t : Instant} (h : next? previous clock = some t) :
    t.seconds ≤ clock.seconds ∨ t.seconds ≤ previous.seconds + 1 := by
  obtain ⟨floor, step, same⟩ := Option.map_eq_some_iff.1 h
  split at same
  · rw [← same]
    exact .inl (Int.le_refl clock.seconds)
  · right
    rw [← same]
    simp only [addMicro?] at step
    split at step <;> split at step <;> have parts := ofParts?_eq_some step <;> omega

end Instant

namespace Service

variable {held : Catalogue} {texts : Texts} {call : Call}

/-! ### Right answers of each kind -/

/-- Giving what was asked for is right when the call is as it must be, and what is shown is. -/
theorem Right.of_ok {value : View call} (complete : ¬ call.Incomplete) (hits : ¬ Misses texts call)
    (read : ∀ user id shown, (⟨call, .ok value⟩ : Exchange) = ⟨.read user id, .ok shown⟩ →
      shown.post.user = user ∧ shown.post.id = id ∧ texts user id = some shown.post.data)
    (listing : ∀ user listing, (⟨call, .ok value⟩ : Exchange) = ⟨.readAll user, .ok listing⟩ →
      (∀ shown ∈ listing.posts, shown.post.user = user) ∧
        (listing.posts.map fun shown => shown.post.id).Nodup ∧
        ∀ id data, texts user id = some data ↔
          ∃ shown ∈ listing.posts, shown.post.id = id ∧ shown.post.data = data) :
    Right texts ⟨call, .ok value⟩ := by
  constructor
  · intro error refused
    cases refused
  · constructor
    · rintro ⟨error, refused, -⟩
      cases refused
    · rintro (incomplete | misses)
      · exact absurd incomplete complete
      · exact absurd misses hits
  · intro unanswered
    cases unanswered
  · exact read
  · exact listing

/-- No result is shown when there is none. -/
theorem ne_ok_of_error {refusal : Refusal} {call' : Call} {value : View call'} :
    (⟨call, .error refusal⟩ : Exchange) ≠ ⟨call', .ok value⟩ := by
  intro same
  obtain ⟨rfl, results⟩ := Sigma.mk.inj same
  cases eq_of_heq results

/-- It is right to blame the client when an argument is empty or the post does not stand. -/
theorem Right.of_invalid (message : String) (wrong : call.Incomplete ∨ Misses texts call) :
    Right texts ⟨call, .error (.reply (.invalidArgument message))⟩ := by
  constructor
  · rintro error refused
    obtain rfl : ServiceError.invalidArgument message = error :=
      Refusal.reply.inj (Except.error.inj refused)
    exact ErrorCode.noConfusion
  · exact ⟨fun _ => wrong, fun _ => ⟨_, rfl, rfl⟩⟩
  · intro unanswered
    cases unanswered
  · exact fun user id shown same => absurd same ne_ok_of_error
  · exact fun user listing same => absurd same ne_ok_of_error

/-- A change of a post that stands may be left without an answer. -/
theorem Right.of_unanswered {user id data : String} {clock : ClockReading}
    (complete : ¬ (Call.update user id data clock).Incomplete) (stands : texts user id ≠ none) :
    Right texts ⟨.update user id data clock, .error .unanswered⟩ := by
  constructor
  · intro error refused
    cases refused
  · constructor
    · rintro ⟨error, refused, -⟩
      cases refused
    · rintro (incomplete | misses)
      · exact absurd incomplete complete
      · exact absurd misses stands
  · exact fun _ => ⟨user, id, data, clock, rfl, stands⟩
  · exact fun user id shown same => absurd same ne_ok_of_error
  · exact fun user listing same => absurd same ne_ok_of_error

/-- A user's posts, each once, are shown as the texts that stand under that user. -/
theorem shown_posts (own : held.Own) {user : String} {posts : List Post} (once : posts.Nodup)
    (all : ∀ post, post ∈ posts ↔ held user post.id = some post) :
    (∀ shown ∈ posts.map Shown.mk, shown.post.user = user) ∧
      ((posts.map Shown.mk).map fun shown => shown.post.id).Nodup ∧
      ∀ id data, held.texts user id = some data ↔
        ∃ shown ∈ posts.map Shown.mk, shown.post.id = id ∧ shown.post.data = data := by
  refine ⟨?_, ?_, ?_⟩
  · intro shown member
    obtain ⟨post, inside, rfl⟩ := List.mem_map.1 member
    exact (own user post.id post ((all post).1 inside)).1
  · rw [List.map_map]
    refine List.Nodup.map_on ?_ once
    intro post member post' member' (same : post.id = post'.id)
    have found := (all post).1 member
    rw [same, (all post').1 member'] at found
    exact (Option.some.inj found).symm
  · intro id data
    rw [Catalogue.texts_eq_some]
    constructor
    · rintro ⟨post, found, rfl⟩
      obtain ⟨-, rfl⟩ := own user id post found
      exact ⟨⟨post⟩, List.mem_map_of_mem ((all post).2 found), rfl, rfl⟩
    · rintro ⟨shown, member, rfl, rfl⟩
      obtain ⟨post, inside, rfl⟩ := List.mem_map.1 member
      exact ⟨post, (all post).1 inside, rfl⟩

/-- What a catalogue gives is right to show while its texts stand. -/
theorem right_of_gives (own : held.Own) (complete : ¬ call.Incomplete) {outcome : call.Outcome}
    (given : held.Gives call outcome) : Right held.texts ⟨call, view call outcome⟩ := by
  cases call with
  | create user data fresh =>
    obtain rfl : outcome = .ok (Post.make user data fresh) := given
    exact .of_ok complete not_false (fun _ _ _ same => by cases same)
      (fun _ _ same => by cases same)
  | read user id =>
    obtain rfl : outcome = held.lookup user id := given
    unfold Catalogue.lookup
    cases found : held user id with
    | none => exact .of_invalid _ (.inr (Catalogue.texts_eq_none.2 found))
    | some post =>
      have stands := Catalogue.texts_eq_some.2 ⟨post, found, rfl⟩
      refine .of_ok complete ?_ ?_ fun _ _ same => by cases same
      · exact fun misses => absurd (stands.symm.trans misses) (Option.some_ne_none _)
      · rintro user' id' shown same
        cases same
        exact ⟨(own user id post found).1, (own user id post found).2, stands⟩
  | readAll user =>
    obtain ⟨posts, rfl, once, all⟩ := given
    refine .of_ok complete not_false (fun _ _ _ same => by cases same) ?_
    rintro user' listing same
    cases same
    exact shown_posts own once all
  | update user id data clock =>
    obtain rfl : outcome = held.change user id data clock := given
    unfold Catalogue.change
    cases found : held user id with
    | none => exact .of_invalid _ (.inr (Catalogue.texts_eq_none.2 found))
    | some post =>
      have stands : held.texts user id ≠ none := by
        rw [ne_eq, Catalogue.texts_eq_none, found]
        exact Option.some_ne_none post
      cases later : post.withData? data clock with
      | none =>
        simp only [later]
        exact .of_unanswered complete stands
      | some changed =>
        simp only [later]
        exact .of_ok complete stands (fun _ _ _ same => by cases same) fun _ _ same => by cases same
  | delete user id =>
    obtain rfl : outcome = .ok () := given
    exact .of_ok complete not_false (fun _ _ _ same => by cases same)
      (fun _ _ same => by cases same)

/-- The texts that stand after an exchange are those of the catalogue after the call. -/
theorem texts_after (own : held.Own) {outcome : call.Outcome} (given : held.Gives call outcome) :
    held.texts.after ⟨call, view call outcome⟩ = (held.after call).texts := by
  cases call with
  | create user data fresh =>
    obtain rfl : outcome = .ok (Post.make user data fresh) := given
    exact (Catalogue.texts_file (Post.make user data fresh)).symm
  | read user id => cases outcome <;> rfl
  | readAll user => cases outcome <;> rfl
  | update user id data clock =>
    obtain rfl : outcome = held.change user id data clock := given
    show _ = (held.afterChange (held.change user id data clock)).texts
    cases changes : held.change user id data clock with
    | error e => rfl
    | ok changed =>
      obtain ⟨hu, hi⟩ := own.change changes
      obtain ⟨post, -, later⟩ := Catalogue.change_eq_ok changes
      show held.texts.write user id (some data) = (held.file changed).texts
      rw [Catalogue.texts_file, hu, hi, (Post.withData?_identity later).2.2.1]
  | delete user id =>
    obtain rfl : outcome = .ok () := given
    exact (Catalogue.texts_drop user id).symm

/-! ### Room on the time line -/

/-- A call moves the last changes on by a second at most, if the clock reads no more than that. -/
theorem until_after {second : Int} (held_until : held.Until second)
    (reading : ∀ clock ∈ call.clock?, clock.seconds ≤ second) :
    (held.after call).Until (second + 1) := by
  have file : ∀ post : Post, post.updatedAt.seconds ≤ second + 1 →
      (held.file post).Until (second + 1) := by
    intro post soon user id current found
    by_cases here : user = post.user ∧ id = post.id
    · obtain ⟨rfl, rfl⟩ := here
      rw [Catalogue.file_self] at found
      exact Option.some.inj found ▸ soon
    · rw [Catalogue.file_ne here] at found
      exact (held_until user id current found).trans (by omega)
  have keep : held.Until (second + 1) :=
    fun user id post found => (held_until user id post found).trans (by omega)
  cases call with
  | create user data fresh =>
    have now : fresh.clock.seconds ≤ second := reading _ rfl
    exact file _ (now.trans (by omega))
  | read user id => exact keep
  | readAll user => exact keep
  | update user id data clock =>
    show (held.afterChange (held.change user id data clock)).Until (second + 1)
    cases changes : held.change user id data clock with
    | error e => exact keep
    | ok changed =>
      obtain ⟨post, found, later⟩ := Catalogue.change_eq_ok changes
      obtain ⟨t, next, rfl⟩ := Option.map_eq_some_iff.1 later
      have before := held_until user id post found
      have now : clock.seconds ≤ second := reading _ rfl
      refine file _ ?_
      rcases Instant.seconds_le_of_next? next with soon | soon
      · exact soon.trans (now.trans (by omega))
      · exact soon.trans (by omega)
  | delete user id =>
    intro u i post found
    by_cases here : u = user ∧ i = id
    · obtain ⟨rfl, rfl⟩ := here
      rw [Catalogue.after, Catalogue.drop_self] at found
      cases found
    · rw [Catalogue.after, Catalogue.drop_ne here] at found
      exact keep u i post found

/-- Before the last second every call is answered. -/
theorem answered_of_until {second : Int} (held_until : held.Until second)
    (room : second < Instant.lastSecond) {outcome : call.Outcome}
    (given : held.Gives call outcome) : view call outcome ≠ .error .unanswered := by
  intro unanswered
  cases call with
  | create user data fresh =>
    obtain rfl : outcome = .ok (Post.make user data fresh) := given
    cases unanswered
  | read user id =>
    obtain rfl : outcome = held.lookup user id := given
    unfold Catalogue.lookup at unanswered
    split at unanswered <;> cases unanswered
  | readAll user =>
    obtain ⟨posts, rfl, -, -⟩ := given
    cases unanswered
  | update user id data clock =>
    obtain rfl : outcome = held.change user id data clock := given
    unfold Catalogue.change at unanswered
    split at unanswered
    · cases unanswered
    · rename_i post found
      obtain ⟨t, next⟩ := Instant.exists_next?
        (Int.lt_of_le_of_lt (held_until user id post found) room) clock
      rw [Post.withData?, next] at unanswered
      cases unanswered
  | delete user id =>
    obtain rfl : outcome = .ok () := given
    cases unanswered

/-! ## Runs -/

section Runs

variable {ω κ : Type} {store : Store ω κ} {scope : Call → ω → Prop} {shows : Catalogue → ω → Prop}

/-- How matters stand after an exchange that left a catalogue as another one. -/
structure Leaves (held : Catalogue) (exchange : Exchange) (next : Catalogue) : Prop where
  right : Right held.texts exchange
  own : next.Own
  texts : held.texts.after exchange = next.texts
  held_until : ∀ second, held.Until second →
    (∀ clock ∈ exchange.1.clock?, clock.seconds ≤ second) → next.Until (second + 1)
  answered : ∀ second, held.Until second → second < Instant.lastSecond →
    exchange.2 ≠ .error .unanswered

/-- Every exchange with a service over a store that follows its catalogue is a step. -/
theorem exchange_leaves (follows : store.Follows scope shows) {held : Catalogue} {state : ω}
    (shown : shows held state) (own : held.Own) (call : Call)
    (inScope : ¬ call.Incomplete → scope call state) :
    ∃ next, Leaves held (exchange store call state).1 next ∧
      shows next (exchange store call state).2 ∧
      (call.Incomplete → (exchange store call state).2 = state) ∧
      (¬ call.Incomplete → (exchange store call state).2 = (store.complete call state).2) := by
  by_cases incomplete : call.Incomplete
  · obtain ⟨message, refused⟩ := serve_of_incomplete store incomplete state
    rw [exchange, refused]
    refine ⟨held, ⟨.of_invalid message (.inl incomplete), own, ?_, ?_, ?_⟩, shown, ?_, ?_⟩
    · cases call <;> rfl
    · exact fun second before _ user id post found => (before user id post found).trans (by omega)
    · exact fun _ _ _ unanswered => by cases unanswered
    · exact fun _ => rfl
    · exact fun complete => absurd incomplete complete
  · obtain ⟨given, after⟩ := follows call held state shown (inScope incomplete)
    rw [exchange, serve_of_complete store incomplete]
    refine ⟨held.after call, ⟨?_, own.after call, ?_, ?_, ?_⟩, after, ?_, ?_⟩
    · exact right_of_gives own incomplete given
    · exact texts_after own given
    · exact fun second before reading => until_after before reading
    · exact fun second before room => answered_of_until before room given
    · exact fun yes => absurd yes incomplete
    · exact fun _ => rfl

/-- The calls that reach the store. -/
def accepted (calls : List Call) : List Call := calls.filter fun call => ¬ call.Incomplete

/-- Exchanges that follow one another, from a catalogue on. -/
inductive Proceeds : Catalogue → List Exchange → Prop where
  | nil (held : Catalogue) : Proceeds held []
  | cons {held next : Catalogue} {exchange : Exchange} {rest : List Exchange}
      (leaves : Leaves held exchange next) (others : Proceeds next rest) :
      Proceeds held (exchange :: rest)

/-- A run of the service over a store that follows its catalogue proceeds from it. -/
theorem proceeds (follows : store.Follows scope shows) (calls : List Call) :
    ∀ {held : Catalogue} {state : ω}, shows held state → held.Own →
      store.Within scope (accepted calls) state →
        Proceeds held (replies (exchange store) calls state) := by
  induction calls with
  | nil => exact fun _ _ _ => .nil _
  | cons call calls ih =>
    intro held state shown own within
    by_cases incomplete : call.Incomplete
    · have rest : accepted (call :: calls) = accepted calls :=
        List.filter_cons_of_neg (by simpa using incomplete)
      rw [rest] at within
      obtain ⟨next, leaves, shown', same, -⟩ :=
        exchange_leaves follows shown own call fun complete => absurd incomplete complete
      exact .cons leaves (ih shown' leaves.own ((same incomplete).symm ▸ within))
    · have rest : accepted (call :: calls) = call :: accepted calls :=
        List.filter_cons_of_pos (by simpa using incomplete)
      rw [rest] at within
      obtain ⟨next, leaves, shown', -, same⟩ :=
        exchange_leaves follows shown own call fun _ => within.1
      exact .cons leaves (ih shown' leaves.own ((same incomplete).symm ▸ within.2))

namespace Proceeds

variable {held : Catalogue} {exchanges : List Exchange}

/-- Every answer is right while the texts stand that the exchanges before it have left. -/
theorem right (proceeds : Proceeds held exchanges) : ∀ {history : List Exchange},
    standing history = held.texts → ∀ before exchange after,
      exchanges = before ++ exchange :: after → Right (standing (history ++ before)) exchange := by
  induction proceeds with
  | nil held =>
    intro history _ before exchange after split
    cases before <;> cases split
  | @cons held next first rest leaves _ ih =>
    intro history stands before exchange after split
    cases before with
    | nil =>
      obtain ⟨rfl, -⟩ := List.cons.inj split
      rw [List.append_nil, stands]
      exact leaves.right
    | cons first' before =>
      obtain ⟨rfl, split'⟩ := List.cons.inj split
      have stands' : standing (history ++ [first]) = next.texts := by
        rw [standing, List.foldl_append]
        show (standing history).after first = next.texts
        rw [stands, leaves.texts]
      have right := ih stands' before exchange after split'
      rw [List.append_assoc] at right
      exact right

/-- Every call is answered when the time line has room for as many seconds as there are calls. -/
theorem answered (proceeds : Proceeds held exchanges) : ∀ {latest second : Int},
    held.Until second → latest ≤ second → second + exchanges.length < Instant.lastSecond →
      (∀ exchange ∈ exchanges, ∀ clock ∈ exchange.1.clock?, clock.seconds ≤ latest) →
        ∀ exchange ∈ exchanges, exchange.2 ≠ .error .unanswered := by
  induction proceeds with
  | nil held => exact fun _ _ _ _ _ member => nomatch member
  | @cons held next first rest leaves _ ih =>
    intro latest second before later room readings exchange member
    rw [List.length_cons] at room
    rcases List.mem_cons.1 member with rfl | member
    · exact leaves.answered second before (by omega)
    · have here : ∀ clock ∈ first.1.clock?, clock.seconds ≤ second := fun clock read =>
        (readings first List.mem_cons_self clock read).trans later
      exact ih (leaves.held_until second before here) (by omega) (by omega)
        (fun other there => readings other (List.mem_cons_of_mem _ there)) exchange member

end Proceeds

/-- **All answers of a service are right**, over a store that follows its catalogue and is empty at
first. -/
theorem allRight (follows : store.Follows scope shows) {state : ω}
    (empty : shows (fun _ _ => none) state) (calls : List Call)
    (within : store.Within scope (accepted calls) state) :
    AllRight (replies (exchange store) calls state) := by
  have run := proceeds follows calls empty Catalogue.own_empty within
  constructor
  · exact run.right (show standing [] = Catalogue.texts fun _ _ => none from rfl)
  · intro latest room readings
    exact run.answered (fun _ _ _ found => nomatch found) (Int.le_refl latest) room readings

end Runs

/-! ## The service over the stores -/

/-- A lookup leaves the document file as it is. -/
theorem complete_read_file {names : Set String} {held : Catalogue} {env : Lmdb.Environment}
    (shown : Lmdb.Shows names held env) (distinct : Lmdb.Distinct names) (pageSize : Nat)
    {user id : String} (known : ∀ name ∈ (Call.read user id).names, name ∈ names) :
    ((Lmdb.store pageSize).complete (.read user id) env).2 = env := by
  have room : Lmdb.HasRoom (.read user id) env := fun _ files => nomatch files
  rw [(Lmdb.complete_store shown distinct pageSize (.read user id) known room).2]
  exact shown.sound.restock_self

/-- **All answers of the service are right**, over a memory and over a document file with pages of
any size, without a cache and behind one of any capacity: whatever users, identifiers and texts the
calls are made with, as long as no two names have the same digest and there is room in the file. -/
theorem service_answers_right (calls : List Call) (pageSize capacity size : Nat)
    (distinct : Lmdb.Distinct (Call.namesOf (accepted calls)))
    (room : (Lmdb.store pageSize).Within Lmdb.HasRoom (accepted calls) { capacity := capacity }) :
    AllRight (replies (exchange (Memory.store.behind Cache.absent)) calls {}) ∧
      AllRight (replies (exchange (Memory.store.cachedBy Lru.cache)) calls
        ({}, { capacity := size })) ∧
      AllRight (replies (exchange ((Lmdb.store pageSize).behind Cache.absent)) calls
        { capacity := capacity }) ∧
      AllRight (replies (exchange ((Lmdb.store pageSize).cachedBy Lru.cache)) calls
        ({ capacity := capacity }, { capacity := size })) := by
  have known : ∀ call ∈ accepted calls, ∀ name ∈ call.names,
      name ∈ Call.namesOf (accepted calls) := fun call member name used => ⟨call, member, used⟩
  have within := room.also known
  have filed := Lmdb.shows_empty (Call.namesOf (accepted calls)) capacity
  have follows := Lmdb.follows distinct pageSize
  have coherent : Coherent (fun _ _ => none) (Lru.peek { capacity := size }) :=
    Coherent.of_empty fun _ _ => rfl
  refine ⟨?_, ?_, ?_, ?_⟩
  · exact allRight Memory.follows.behind_absent Memory.shows_empty calls (Store.within_true _ _ _)
  · exact allRight (Memory.follows.cachedBy Lru.forgetful Lru.clears)
      ⟨Memory.shows_empty, Catalogue.own_empty, coherent⟩ calls (Store.within_true _ _ _)
  · exact allRight follows.behind_absent filed calls (within.behind_absent _)
  · refine allRight (follows.cachedBy Lru.forgetful Lru.clears)
      ⟨filed, Catalogue.own_empty, coherent⟩ calls ?_
    refine Store.Within.cachedBy follows ?_ Lru.cache (accepted calls) filed within
    exact fun user id held env shown inScope =>
      complete_read_file shown distinct pageSize inScope.1

/-- Some calls with empty arguments among the errands. -/
def visits : List Call :=
  .create "" "lost" ⟨"c", .epoch⟩ :: errands ++ [.update "a" "" "lost" .epoch]

/-- In pages of one document each, with a kilobyte of room and a cache of one entry. -/
theorem service_answers_right_visits :
    Lmdb.Distinct (Call.namesOf (accepted visits)) ∧
      (Lmdb.store 1).Within Lmdb.HasRoom (accepted visits) { capacity := 1024 } ∧
      AllRight (replies (exchange ((Lmdb.store 1).cachedBy Lru.cache)) visits
        ({ capacity := 1024 }, { capacity := 1 })) := by
  have reaching : accepted visits = errands := by decide
  have distinct : Lmdb.Distinct (Call.namesOf (accepted visits)) :=
    reaching ▸ Lmdb.distinct_errands
  have room : (Lmdb.store 1).Within Lmdb.HasRoom (accepted visits) { capacity := 1024 } := by
    refine Lmdb.within_of_need distinct 1 _ (Lmdb.shows_empty _ 1024)
      (fun call member name used => ⟨call, member, used⟩) ?_
    rw [reaching]
    decide +kernel
  exact ⟨distinct, room, (service_answers_right visits 1 1024 1 distinct room).2.2.2⟩

end Service

end PostStore
