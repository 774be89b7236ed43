import Mathlib.Data.Finset.Card
import PostStore.Proofs.Agreement
import PostStore.Proofs.Asking
/-!
# The store in memory is one map

The two levels of the store in memory, users and then identifiers, cannot be told from a single map
whose keys are pairs of both.  What it holds under a pair is what was last given for that pair, and
a listing, once asked for, is deaf to everything that happens afterwards.
-/

namespace PostStore

/-- The user and the identifier that a call is about; for a creation, those of the new post. -/
def Call.pair? : Call → Option (String × String)
  | .create user _ fresh => some (user, fresh.id)
  | .read user id | .update user id _ _ | .delete user id => some (user, id)
  | .readAll _ => none

/-! ## Requests -/

namespace Memory

/-- What the store in memory can be asked: calls, how many posts there are, to remove them all. -/
inductive Request where
  | call (call : Call)
  | size
  | clear

/-- The answer to a request. -/
abbrev Request.Answer : Request → Type
  | .call asked => asked.Answer Snapshot
  | .size => Nat
  | .clear => Unit

/-- A request with its answer. -/
abbrev Exchange : Type := Σ request : Request, request.Answer

/-- Attends to a request. -/
def attend : (request : Request) → Memory → request.Answer × Memory
  | .call call, memory => memory.serve call
  | .size, memory => (memory.size, memory)
  | .clear, memory => ((), memory.clear)

/-- Attends to a request and puts it beside the answer. -/
def exchange (request : Request) (memory : Memory) : Exchange × Memory :=
  (⟨request, (attend request memory).1⟩, (attend request memory).2)

/-- The memory after some requests. -/
def afterAll (requests : List Request) (memory : Memory) : Memory :=
  requests.foldl (fun memory request => (attend request memory).2) memory

/-- The post last given for a user and an identifier, after another exchange. -/
def given (user id : String) (last : Option Post) : Exchange → Option Post
  | ⟨.call (.create u _ _), .ok post⟩ => if u = user ∧ post.id = id then some post else last
  | ⟨.call (.update u i _ _), .ok post⟩ => if u = user ∧ i = id then some post else last
  | ⟨.call (.delete u i), _⟩ => if u = user ∧ i = id then none else last
  | ⟨.clear, _⟩ => none
  | _ => last

/-- The post last given for a user and an identifier in some exchanges, unless it was deleted, or
everything was removed, since. -/
def lastGiven (user id : String) (exchanges : List Exchange) : Option Post :=
  exchanges.foldl (given user id) none

/-- What the holder of a cursor sees of it while requests are made in between. -/
def overheard : List (FeedAsk ⊕ Request) → Holding Memory Snapshot → List Seen
  | [], _ => []
  | .inl question :: turns, holding =>
    (store.feed.ask question holding).1 :: overheard turns (store.feed.ask question holding).2
  | .inr request :: turns, holding =>
    overheard turns { holding with state := (attend request holding.state).2 }

/-! ## One map -/

/-- Posts under pairs of a user and an identifier. -/
abbrev Flat : Type := Bindings (String × String) Post

namespace Flat

/-- The posts of a user, by identifier. -/
def ofUser (user : String) (flat : Flat) : Bindings String Post :=
  (flat.filter fun binding => binding.1.1 = user).map fun binding => (binding.1.2, binding.2)

/-- Serves calls. -/
def serve : (call : Call) → Flat → call.Answer Snapshot × Flat
  | .create user data fresh, flat =>
    (.ok (Post.make user data fresh), flat.put (user, fresh.id) (Post.make user data fresh))
  | .read user id, flat =>
    match flat.get? (user, id) with
    | some post => (.ok post, flat)
    | none => (.error (.notFound user id), flat)
  | .readAll user, flat => (.ok (Snapshot.ofList ((flat.ofUser user).map Prod.snd)), flat)
  | .update user id data clock, flat =>
    match flat.get? (user, id) with
    | none => (.error (.notFound user id), flat)
    | some post =>
      match post.withData? data clock with
      | none => (.error .noLaterInstant, flat)
      | some changed => (.ok changed, flat.put (user, id) changed)
  | .delete user id, flat => (.ok (), flat.erase (user, id))

/-- Attends to a request and puts it beside the answer. -/
def exchange : Request → Flat → Exchange × Flat
  | .call call, flat => (⟨.call call, (flat.serve call).1⟩, (flat.serve call).2)
  | .size, flat => (⟨.size, flat.length⟩, flat)
  | .clear, _ => (⟨.clear, ()⟩, [])

/-! ### The posts of a user -/

variable {flat : Flat}

theorem get?_ofUser (user id : String) (flat : Flat) :
    (flat.ofUser user).get? id = flat.get? (user, id) := by
  induction flat with
  | nil => rfl
  | cons binding rest ih =>
    obtain ⟨⟨u, i⟩, post⟩ := binding
    unfold ofUser at ih ⊢
    by_cases here : u = user
    · simp [here, Bindings.get?, ih]
    · simp [here, Bindings.get?, ih]

theorem ofUser_put (user id user' : String) (post : Post) (flat : Flat) :
    ofUser user' (flat.put (user, id) post) =
      if user = user' then (flat.ofUser user).put id post else flat.ofUser user' := by
  induction flat with
  | nil => by_cases here : user = user' <;> simp [ofUser, Bindings.put, here]
  | cons binding rest ih =>
    obtain ⟨⟨u, i⟩, post'⟩ := binding
    unfold ofUser at ih ⊢
    -- the first binding is the one replaced, another one of the user's, or someone else's
    by_cases same : (u, i) = (user, id)
    · obtain ⟨rfl, rfl⟩ := Prod.mk.inj same
      by_cases here : u = user' <;> simp [Bindings.put, here]
    · by_cases mine : u = user
      · subst mine
        have other : i ≠ id := fun eq => same (by rw [eq])
        by_cases here : u = user' <;> simp_all [Bindings.put]
      · by_cases here : user = user'
        · subst here
          simp_all [Bindings.put]
        · by_cases his : u = user' <;> simp_all [Bindings.put]

theorem ofUser_erase (user id user' : String) (flat : Flat) :
    ofUser user' (flat.erase (user, id)) =
      if user = user' then (flat.ofUser user).erase id else flat.ofUser user' := by
  induction flat with
  | nil => simp [ofUser, Bindings.erase]
  | cons binding rest ih =>
    obtain ⟨⟨u, i⟩, post⟩ := binding
    unfold ofUser Bindings.erase at ih ⊢
    by_cases here : user = user'
    · subst here
      by_cases mine : u = user <;> by_cases same : i = id <;> simp_all
    · by_cases his : u = user'
      · have other : u ≠ user := fun eq => here (eq.symm.trans his)
        simp_all
      · by_cases mine : u = user <;> by_cases same : i = id <;> simp_all

/-- Identifiers of one user are bound once if pairs are. -/
theorem ofUser_functional (once : flat.Functional) (user : String) :
    (flat.ofUser user).Functional := by
  have keys : (flat.ofUser user).map Prod.fst =
      ((flat.map Prod.fst).filter fun pair => pair.1 = user).map Prod.snd := by
    simp [ofUser, List.filter_map, Function.comp_def]
  rw [Bindings.Functional, keys]
  refine List.Nodup.map_on ?_ (once.filter _)
  intro pair mine pair' mine' same
  have user_eq : pair.1 = user := by simpa using (List.mem_filter.1 mine).2
  have user_eq' : pair'.1 = user := by simpa using (List.mem_filter.1 mine').2
  exact Prod.ext (user_eq.trans user_eq'.symm) same

end Flat

/-! ## Two levels as one map -/

/-- A memory holds a flat map: it has its posts under each user, no user without posts, and each
user once. -/
structure Holds (flat : Flat) (memory : Memory) : Prop where
  posts : ∀ user, memory.posts user = flat.ofUser user
  pruned : ∀ entry ∈ memory.users, entry.2 ≠ []
  users : memory.users.Functional
  once : flat.Functional

namespace Holds

variable {flat : Flat} {memory : Memory}

theorem empty : Holds [] {} where
  posts _ := rfl
  pruned _ member := nomatch member
  users := List.nodup_nil
  once := List.nodup_nil

theorem find (holds : Holds flat memory) (user id : String) :
    memory.find? user id = flat.get? (user, id) := by
  rw [find?, holds.posts, Flat.get?_ofUser]

/-- Replacing the posts of a user leaves no user without posts, and each user once. -/
theorem setPosts (holds : Holds flat memory) {flat' : Flat} (user : String)
    (posts : Bindings String Post) (once : flat'.Functional)
    (parts : ∀ user', flat'.ofUser user' = if user = user' then posts else flat.ofUser user') :
    Holds flat' (memory.setPosts user posts) where
  posts user' := by rw [posts_setPosts, parts, holds.posts]
  pruned entry member := by
    -- a user whose last post goes is dropped, and the others are as before
    unfold Memory.setPosts at member
    split at member
    · exact holds.pruned entry (List.mem_filter.1 member).1
    · rename_i full
      have put := (holds.users.put user posts).mem_iff.1 member
      rw [Bindings.get?_put] at put
      split at put
      · obtain rfl := Option.some.inj put
        exact fun empty => full (List.isEmpty_iff.2 empty)
      · exact holds.pruned entry (holds.users.mem_iff.2 put)
  users := by
    unfold Memory.setPosts
    split
    · exact holds.users.erase user
    · exact holds.users.put user posts
  once := once

theorem insert (holds : Holds flat memory) (user id : String) (post : Post) :
    Holds (flat.put (user, id) post) (memory.insert user id post) := by
  rw [Memory.insert, holds.posts]
  exact holds.setPosts user _ (holds.once.put _ _) fun user' =>
    Flat.ofUser_put user id user' post flat

theorem remove (holds : Holds flat memory) (user id : String) :
    Holds (flat.erase (user, id)) (memory.remove user id) := by
  rw [Memory.remove, holds.posts]
  exact holds.setPosts user _ (holds.once.erase _) fun user' => Flat.ofUser_erase user id user' flat

/-- A call is answered from the flat map, and changes it. -/
theorem serve (holds : Holds flat memory) (call : Call) :
    (memory.serve call).1 = (flat.serve call).1 ∧
      Holds (flat.serve call).2 (memory.serve call).2 := by
  cases call with
  | create user data fresh => exact ⟨rfl, holds.insert user fresh.id _⟩
  | read user id =>
    rw [Memory.serve, Flat.serve, ← holds.find]
    cases memory.find? user id with
    | none => exact ⟨rfl, holds⟩
    | some post => exact ⟨rfl, holds⟩
  | readAll user =>
    rw [Memory.serve, Flat.serve, holds.posts]
    exact ⟨rfl, holds⟩
  | update user id data clock =>
    rw [Memory.serve, Flat.serve, ← holds.find]
    cases memory.find? user id with
    | none => exact ⟨rfl, holds⟩
    | some post =>
      cases later : post.withData? data clock with
      | none => simpa only [later, true_and] using holds
      | some changed => simpa only [later, true_and] using holds.insert user id changed
  | delete user id => exact ⟨rfl, holds.remove user id⟩

end Holds

/-! ## How many there are -/

/-- The pairs under which posts are held, user by user. -/
def pairs (memory : Memory) : List (String × String) :=
  memory.users.flatMap fun entry => entry.2.map fun binding => (entry.1, binding.1)

theorem length_pairs (memory : Memory) : memory.pairs.length = memory.size := by
  unfold pairs size
  induction memory.users with
  | nil => rfl
  | cons entry rest ih => rw [List.flatMap_cons, List.length_append, List.length_map, ih]; rfl

namespace Holds

variable {flat : Flat} {memory : Memory}

theorem mem_pairs (holds : Holds flat memory) (user id : String) :
    (user, id) ∈ memory.pairs ↔ (memory.find? user id).isSome := by
  have entry_iff : ∀ posts, (user, posts) ∈ memory.users ↔ memory.users.get? user = some posts :=
    fun posts => holds.users.mem_iff
  rw [find?, Bindings.isSome_get?_iff, Memory.posts, pairs, List.mem_flatMap]
  constructor
  · rintro ⟨⟨user', posts⟩, entry, within⟩
    obtain ⟨⟨id', post⟩, binding, same⟩ := List.mem_map.1 within
    obtain ⟨rfl, rfl⟩ := Prod.mk.inj same
    rw [(entry_iff posts).1 entry]
    exact List.mem_map.2 ⟨_, binding, rfl⟩
  · intro bound
    cases found : memory.users.get? user with
    | none => simp [found] at bound
    | some posts =>
      rw [found] at bound
      obtain ⟨binding, member, rfl⟩ := List.mem_map.1 bound
      exact ⟨_, (entry_iff posts).2 found, List.mem_map.2 ⟨binding, member, rfl⟩⟩

theorem nodup_pairs (holds : Holds flat memory) : memory.pairs.Nodup := by
  refine List.nodup_flatMap.2 ⟨?_, ?_⟩
  · rintro ⟨user, posts⟩ entry
    have mine : posts = memory.posts user := by
      rw [Memory.posts, holds.users.mem_iff.1 entry, Option.getD_some]
    have once : (posts.map Prod.fst).Nodup := by
      rw [mine, holds.posts]
      exact Flat.ofUser_functional holds.once user
    have pair_eq : posts.map (fun binding => (user, binding.1)) =
        (posts.map Prod.fst).map fun id => (user, id) := by
      rw [List.map_map]
      rfl
    rw [pair_eq]
    exact once.map fun id id' same => (Prod.mk.inj same).2
  · -- entries of different users have no pair in common
    refine (List.pairwise_map.1 holds.users).imp ?_
    rintro ⟨user, posts⟩ ⟨user', posts'⟩ other pair mine his
    obtain ⟨binding, -, rfl⟩ := List.mem_map.1 mine
    obtain ⟨binding', -, same⟩ := List.mem_map.1 his
    exact other (Prod.mk.inj same).1.symm

/-- The size is the number of bindings of the flat map. -/
theorem size (holds : Holds flat memory) : memory.size = flat.length := by
  -- both list the same pairs, each once
  have alike : memory.pairs.Perm (flat.map Prod.fst) := by
    refine (List.perm_ext_iff_of_nodup holds.nodup_pairs holds.once).2 ?_
    rintro ⟨user, id⟩
    rw [holds.mem_pairs, holds.find, Bindings.isSome_get?_iff]
  rw [← length_pairs, alike.length_eq, List.length_map]

/-- A request is answered from the flat map, and changes it. -/
theorem exchange (holds : Holds flat memory) (request : Request) :
    (Memory.exchange request memory).1 = (Flat.exchange request flat).1 ∧
      Holds (Flat.exchange request flat).2 (Memory.exchange request memory).2 := by
  cases request with
  | call call =>
    obtain ⟨answer, next⟩ := holds.serve call
    refine ⟨?_, next⟩
    show (⟨.call call, (memory.serve call).1⟩ : Exchange) = ⟨.call call, (flat.serve call).1⟩
    rw [answer]
  | size =>
    refine ⟨?_, holds⟩
    show (⟨.size, memory.size⟩ : Exchange) = ⟨.size, flat.length⟩
    rw [holds.size]
  | clear => exact ⟨rfl, empty⟩

end Holds

/-! ## One request -/

section Steps

variable {memory memory' : Memory}

/-- A call about one pair leaves what is held under the others. -/
theorem find?_serve_other {call : Call} {pair : String × String} (about : call.pair? = some pair)
    {user id : String} (other : (user, id) ≠ pair) :
    (memory.serve call).2.find? user id = memory.find? user id := by
  have insert_other : ∀ u i post, some (u, i) = some pair →
      (memory.insert u i post).find? user id = memory.find? user id := by
    rintro u i post same
    rw [find?_insert, if_neg]
    rintro ⟨rfl, rfl⟩
    exact other (Option.some.inj same)
  cases call with
  | create u data fresh => exact insert_other u fresh.id _ about
  | read u i => cases found : memory.find? u i <;> simp only [serve, found]
  | readAll u => cases about
  | update u i data clock =>
    cases found : memory.find? u i with
    | none => simp only [serve, found]
    | some post =>
      cases later : post.withData? data clock with
      | none => simp only [serve, found, later]
      | some changed =>
        simp only [serve, found, later]
        exact insert_other u i changed about
  | delete u i =>
    show (memory.remove u i).find? user id = _
    rw [find?_remove, if_neg]
    rintro ⟨rfl, rfl⟩
    exact other (Option.some.inj about)

/-- What a call about one pair is answered depends on what is held under it. -/
theorem serve_congr {call : Call} {pair : String × String} (about : call.pair? = some pair)
    (alike : memory.find? pair.1 pair.2 = memory'.find? pair.1 pair.2) :
    (memory.serve call).1 = (memory'.serve call).1 := by
  cases call with
  | create u data fresh => rfl
  | read u i =>
    obtain rfl := Option.some.inj about
    rw [serve, serve, alike]
    cases memory'.find? u i <;> rfl
  | readAll u => cases about
  | update u i data clock =>
    obtain rfl := Option.some.inj about
    rw [serve, serve, alike]
    cases memory'.find? u i with
    | none => rfl
    | some post => cases later : post.withData? data clock <;> simp only [later]
  | delete u i => rfl

/-- What is held under a pair after a request is the post last given for it. -/
theorem find?_attend (request : Request) (user id : String) :
    (attend request memory).2.find? user id =
      given user id (memory.find? user id) (exchange request memory).1 := by
  cases request with
  | call call =>
    show (memory.serve call).2.find? user id =
      given user id (memory.find? user id) ⟨.call call, (memory.serve call).1⟩
    cases call with
    | create u data fresh => exact find?_insert memory u fresh.id user id _
    | read u i => cases found : memory.find? u i <;> simp only [serve, found, given]
    | readAll u => rfl
    | update u i data clock =>
      cases found : memory.find? u i with
      | none => simp only [serve, found, given]
      | some post =>
        cases later : post.withData? data clock with
        | none => simp only [serve, found, later, given]
        | some changed =>
          simp only [serve, found, later, given]
          exact find?_insert memory u i user id changed
    | delete u i => exact find?_remove memory u i user id
  | size => rfl
  | clear => rfl

theorem filed_attend (request : Request) (filed : memory.Filed) :
    (attend request memory).2.Filed := by
  cases request with
  | call call => exact filed_serve call filed
  | size => exact filed
  | clear => exact filed_empty

end Steps

/-! ## Requests one after the other -/

/-- What every request keeps is kept by requests made one after the other. -/
theorem afterAll_keeps (keep : Memory → Prop)
    (each : ∀ request memory, keep memory → keep (attend request memory).2)
    (requests : List Request) :
    ∀ {memory : Memory}, keep memory → keep (memory.afterAll requests) := by
  induction requests with
  | nil => exact fun start => start
  | cons request rest ih => exact fun start => ih (each request _ start)

/-- Every memory that can be reached holds a flat map. -/
theorem holds_afterAll (requests : List Request) :
    ∃ flat, Holds flat (afterAll requests {}) :=
  afterAll_keeps (fun memory => ∃ flat, Holds flat memory)
    (fun request _ ⟨_, holds⟩ => ⟨_, (holds.exchange request).2⟩) requests ⟨[], .empty⟩

theorem find?_afterAll (user id : String) (requests : List Request) :
    ∀ memory : Memory, (memory.afterAll requests).find? user id =
      (replies exchange requests memory).foldl (given user id) (memory.find? user id) := by
  induction requests with
  | nil => exact fun _ => rfl
  | cons request rest ih =>
    intro memory
    rw [replies, List.foldl_cons, ← find?_attend]
    exact ih _

/-! ## Listings -/

/-- An advance of a snapshot does not look at the memory. -/
theorem next_snapshot (cursor : Snapshot) : ∃ more cursor', ∀ memory : Memory,
    store.feed.next cursor memory = (more, cursor', memory) := by
  show ∃ more cursor', ∀ memory : Memory,
    Cursor.next (fun mark _ => mark.elim) cursor memory = (more, cursor', memory)
  by_cases shut : cursor.closed = true
  · exact ⟨false, cursor, fun memory => by rw [Cursor.next, if_pos shut]⟩
  · refine ⟨cursor.advance.1, cursor.advance.2, fun memory => ?_⟩
    rw [Cursor.next, if_neg shut]
    split
    · rename_i mark _ _
      exact mark.elim
    · rfl

/-- What a question shows, and leaves, has nothing to do with the memory. -/
theorem ask_snapshot (question : FeedAsk) (cursor : Snapshot) (place : Post) :
    ∃ seen cursor' place', ∀ memory : Memory,
      store.feed.ask question ⟨cursor, place, memory⟩ = (seen, ⟨cursor', place', memory⟩) := by
  cases question with
  | next =>
    obtain ⟨more, cursor', step⟩ := next_snapshot cursor
    exact ⟨.next more, cursor', place, fun memory => by rw [Feed.ask, step]⟩
  | get =>
    let taken := store.feed.getInto cursor place
    exact ⟨.get taken.1 taken.2.1, taken.2.2, taken.2.1, fun _ => rfl⟩
  | close => exact ⟨.close, store.feed.close cursor, place, fun _ => rfl⟩

/-- What the holder of a cursor sees depends neither on the memory nor on requests in between. -/
theorem overheard_eq (turns : List (FeedAsk ⊕ Request)) :
    ∀ (cursor : Snapshot) (place : Post) (memory later : Memory),
      overheard turns ⟨cursor, place, memory⟩ =
        replies store.feed.ask (turns.filterMap Sum.getLeft?) ⟨cursor, place, later⟩ := by
  induction turns with
  | nil => exact fun _ _ _ _ => rfl
  | cons turn turns ih =>
    intro cursor place memory later
    cases turn with
    | inl question =>
      obtain ⟨seen, cursor', place', step⟩ := ask_snapshot question cursor place
      show _ :: overheard turns (store.feed.ask question ⟨cursor, place, memory⟩).2 =
        _ :: replies store.feed.ask _ (store.feed.ask question ⟨cursor, place, later⟩).2
      rw [step, step, ih cursor' place' memory later]
    | inr request => exact ih cursor place _ later

/-- A plain loop delivers the posts of a snapshot one by one. -/
theorem loop_ofList (posts : List Post) (memory : Memory) :
    ∀ count, store.feed.loop count (Snapshot.ofList posts) memory = (posts.take count).map .ok := by
  induction posts with
  | nil =>
    intro count
    rw [Feed.loop_false rfl, List.take_nil, List.map_nil]
  | cons post posts ih =>
    intro count
    cases count with
    | zero => rfl
    | succ count =>
      rw [Feed.loop_true rfl, List.take_succ_cons, List.map_cons, ← ih]
      rfl

/-! ## What can be relied on -/

/-- What the holder of a cursor gets that was handed out for the posts of a user. -/
structure Lists (memory : Memory) (user : String) (cursor : Snapshot) (posts : List Post) :
    Prop where
  /-- The posts are those of the user at that time, each once. -/
  all : ∀ post, post ∈ posts ↔ ∃ id, memory.find? user id = some post
  once : posts.Nodup
  /-- Whatever is requested in between, the answers to what is asked of the cursor are those that
  would be given in any other memory, undisturbed. -/
  deaf : ∀ turns place later, overheard turns ⟨cursor, place, memory⟩ =
    replies store.feed.ask (turns.filterMap Sum.getLeft?) ⟨cursor, place, later⟩
  /-- Undisturbed, a loop delivers exactly the posts. -/
  loop : ∀ count later, store.feed.loop count cursor later = (posts.take count).map .ok
  collect : ∀ later, (store.feed.collect cursor later).1 = .ok posts

/-- What there is to say of a memory after some exchanges. -/
structure OneMap (memory : Memory) (exchanges : List Exchange) : Prop where
  /-- A post bears the user and the identifier under which it is held. -/
  identity : ∀ user id post, memory.find? user id = some post → post.user = user ∧ post.id = id
  pruned : ∀ entry ∈ memory.users, entry.2 ≠ []
  /-- The size is the number of pairs under which posts are held. -/
  size : ∃ pairs : Finset (String × String),
    (∀ user id, (user, id) ∈ pairs ↔ (memory.find? user id).isSome) ∧
      (attend .size memory).1 = pairs.card
  /-- A read gives the post last given for the pair, if it has not been removed since. -/
  recent : ∀ user id, (memory.serve (.read user id)).1 =
    match lastGiven user id exchanges with
    | some post => .ok post
    | none => .error (.notFound user id)
  /-- A call about one pair changes no answer to a call about another. -/
  apart : ∀ call other pair pair', call.pair? = some pair → other.pair? = some pair' →
    pair ≠ pair' → ((memory.serve call).2.serve other).1 = (memory.serve other).1
  listing : ∀ user, ∃ cursor posts,
    (memory.serve (.readAll user)).1 = .ok cursor ∧ memory.Lists user cursor posts

/-- A memory that holds a flat map shows what it holds. -/
theorem Holds.shows {flat : Flat} {memory : Memory} (holds : Holds flat memory)
    (filed : memory.Filed) : Shows memory.find? memory where
  find := rfl
  filed := filed
  once user := by
    rw [holds.posts]
    exact Flat.ofUser_functional holds.once user

theorem Shows.lists {memory : Memory} (shown : Shows memory.find? memory) (user : String) :
    memory.Lists user (Snapshot.ofList ((memory.posts user).map Prod.snd))
      ((memory.posts user).map Prod.snd) where
  all post := by
    rw [shown.mem_posts]
    constructor
    · exact fun found => ⟨post.id, found⟩
    · rintro ⟨id, found⟩
      rwa [(Coordinator.owns_iff.1 (shown.filed user id post found)).2]
  once := shown.nodup_posts user
  deaf turns place later := overheard_eq turns _ place memory later
  loop count later := loop_ofList _ later count
  collect later := (Snapshot.collect_ofList _ later).1

/-- After any requests the memory is as the exchanges say. -/
theorem oneMap_afterAll (requests : List Request) :
    OneMap (afterAll requests {}) (replies exchange requests {}) := by
  obtain ⟨flat, holds⟩ := holds_afterAll requests
  have filed : (afterAll requests {}).Filed :=
    afterAll_keeps Filed (fun request _ => filed_attend request) requests filed_empty
  have recent : ∀ user id, (afterAll requests {}).find? user id =
      lastGiven user id (replies exchange requests {}) :=
    fun user id => find?_afterAll user id requests {}
  generalize afterAll requests {} = memory at holds filed recent ⊢
  refine ⟨fun user id post found => Coordinator.owns_iff.1 (filed user id post found), holds.pruned,
    ⟨memory.pairs.toFinset, fun user id => ?_, ?_⟩, fun user id => ?_, ?_,
    fun user => ⟨_, _, rfl, (holds.shows filed).lists user⟩⟩
  · rw [List.mem_toFinset, holds.mem_pairs]
  · rw [List.toFinset_card_of_nodup holds.nodup_pairs, length_pairs]
    rfl
  · rw [← recent, serve]
    cases memory.find? user id <;> rfl
  · intro call other pair pair' about about' different
    exact serve_congr about' (find?_serve_other about different.symm)

/-- With the last post of a user the user goes too. -/
example : (afterAll [.call (.create "a" "tea" ⟨"1", .epoch⟩), .call (.delete "a" "1")] {}).users =
    [] := by
  decide

/-- **The store in memory is one map from pairs to posts.**  Requests made one after the other are
answered as from a flat map, and in every state on the way posts bear their keys, no user is left
without posts, the size counts the pairs, a read gives what was last given, pairs do not disturb one
another, and a listing gives what there was when it was asked for. -/
theorem acts_as_one_map :
    (∀ requests, replies exchange requests {} = replies Flat.exchange requests []) ∧
      ∀ requests, OneMap (afterAll requests {}) (replies exchange requests {}) :=
  ⟨fun requests => replies_eq (fun memory flat => Holds flat memory)
    (fun request _ _ holds => holds.exchange request) requests .empty, oneMap_afterAll⟩

end Memory

end PostStore
