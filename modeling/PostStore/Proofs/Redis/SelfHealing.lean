import Mathlib.Logic.Function.Basic
import PostStore.Proofs.LeastRecentlyUsed
import PostStore.Proofs.Weather
/-!
# A forgetful cache in a server shared with others

Others come to the server at any time, also in the midst of a lookup: strings expire, and bytes of
all kinds are written under any key.  The cache gives what it finds if that is a post, and deletes
what is none.  What it was given it gives until the key is touched, and it touches no key but that
of the call.  Whatever the server replies, every lookup is counted.

All that is asked of the server is that it keeps strings by their keys.  It may refuse lifetimes of
no seconds, and lifetimes that are too long for it; the lifetime that is set up must be none of
the latter.
-/

namespace PostStore.Redis

variable {σ V : Type}

/-! ## A server among others -/

/-- What is under a key: a string, or a value of another kind. -/
inductive Held (V : Type) where
  | string (bytes : Bytes)
  | other (value : V)

/-- What is under each key. -/
abbrev Holdings (V : Type) := String → Option (Held V)

/-- Whether a reply to a lookup is right.  No value but a string can be looked up. -/
def Held.RepliedBy : Option (Held V) → Reply → Prop
  | none, reply => reply = .nil
  | some (.string bytes), reply => reply = .bulk bytes
  | some (.other _), reply => ∃ line, reply = .error line

/-- What happens at the server without the cache: a string expires, or is written by others. -/
inductive Visit where
  | expiry (key : String)
  | write (key : String) (bytes : Bytes)

/-- The key that a visit touches. -/
def Visit.key : Visit → String
  | .expiry key | .write key _ => key

/-- What a visit leaves under its key. -/
def Visit.leaves : Visit → Option (Held V)
  | .expiry _ => none
  | .write _ bytes => some (.string bytes)

/-- What is under each key after a visit. -/
def Visit.after (holdings : Holdings V) (visit : Visit) : Holdings V :=
  Function.update holdings visit.key visit.leaves

/-- A server to which others come as well, with what it holds while it is sound and the most seconds
that it takes for a lifetime. -/
structure SharedServer (σ V : Type) where
  serve : (command : Command) → σ → ReplyTo command × σ
  visit : σ → Visit → σ
  sound : σ → Prop
  held : σ → Holdings V
  longest : Nat

namespace SharedServer

/-- Whether a sound state holds this. -/
def Holds (server : SharedServer σ V) (s : σ) (holdings : Holdings V) : Prop :=
  server.sound s ∧ server.held s = holdings

/-- The server keeps strings by their keys. -/
structure ActsAsStrings (server : SharedServer σ V) : Prop where
  get : ∀ key s, server.sound s →
    Held.RepliedBy (server.held s key) (server.serve (.get key) s).1 ∧
      server.Holds (server.serve (.get key) s).2 (server.held s)
  set : ∀ key value s, server.sound s → server.Holds (server.serve (.set key value) s).2
    (Function.update (server.held s) key (some (.string value)))
  setEx : ∀ key seconds value s, server.sound s → 0 < seconds → seconds ≤ server.longest →
    server.Holds (server.serve (.setEx key seconds value) s).2
      (Function.update (server.held s) key (some (.string value)))
  del : ∀ key s, server.sound s →
    server.Holds (server.serve (.del key) s).2 (Function.update (server.held s) key none)
  visit : ∀ visit s, server.sound s →
    server.Holds (server.visit s visit) (visit.after (server.held s))

/-- The server after some visits. -/
def visitAll (server : SharedServer σ V) (s : σ) (visits : List Visit) : σ :=
  visits.foldl server.visit s

/-- A state of the server with the visits that come before each of the next commands. -/
structure Visited (σ : Type) where
  state : σ
  visits : List (List Visit)

/-- Serves a command after the visits before it. -/
def serveVisited (server : SharedServer σ V) (command : Command) (visited : Visited σ) :
    ReplyTo command × Visited σ :=
  let (reply, s) := server.serve command (server.visitAll visited.state (visited.visits.headD []))
  (reply, ⟨s, visited.visits.tail⟩)

/-- The state when no more commands come. -/
def settled (server : SharedServer σ V) (visited : Visited σ) : σ :=
  server.visitAll visited.state visited.visits.flatten

end SharedServer

/-- How many lookups have been counted. -/
def LookupCounts.lookups (counts : LookupCounts) : Nat := counts.hits + counts.misses

/-! ## The cache among others -/

/-- What happens: others come, or the cache is called and others come meanwhile. -/
inductive Happening where
  | visit (others : Visit)
  | call (call : CacheCall) (meanwhile : List Visit)

namespace CacheSetup

section

variable (setup : CacheSetup) (server : SharedServer σ V)

/-- The key of the entry that a call is about. -/
def keyOf (call : CacheCall) : String := setup.keyPrefix ++ call.key

/-- A call of the cache, and what others do at the server once the first command of the call has
been carried out. -/
def attend (call : CacheCall) (meanwhile : List Visit) (state : σ × LookupCounts) :
    call.Answer × (σ × LookupCounts) :=
  let (answer, visited, counts) :=
    (cacheOver setup server.serveVisited).serve call (⟨state.1, [[], meanwhile]⟩, state.2)
  (answer, server.settled visited, counts)

/-- The server and the counts after something has happened. -/
def happen (state : σ × LookupCounts) : Happening → σ × LookupCounts
  | .visit others => (server.visit state.1 others, state.2)
  | .call call meanwhile => (setup.attend server call meanwhile state).2

/-- Whether what happens may change what is under a key: others do there, and so do calls that are
no lookups. -/
def Touches (key : String) : Happening → Prop
  | .visit others => others.key = key
  | .call call meanwhile =>
    (call.looksUp = false ∧ setup.keyOf call = key) ∨ ∃ visit ∈ meanwhile, visit.key = key

/-- What can be relied on of the cache at a server. -/
structure ForgetfulMap : Prop where
  /-- Whatever happens, the server stays sound. -/
  lasts : ∀ happening state, server.sound state.1 →
    server.sound (setup.happen server state happening).1
  /-- A lookup gives the post that the string under its key decodes to when it arrives, if any. -/
  gives : ∀ user id meanwhile s counts post, server.sound s →
    ((setup.attend server (.get user id) meanwhile (s, counts)).1 = some post ↔
      ∃ bytes, server.held s (setup.entryKey user id) = some (.string bytes) ∧
        Post.ofDocument bytes = .ok post)
  /-- A post that was added is found until something else touches its key. -/
  keeps : ∀ (user id : String) (post : Post) (meanwhile meanwhile' : List Visit)
    (happenings : List Happening) (state : σ × LookupCounts),
    server.sound state.1 → post.Regular →
    (∀ visit ∈ meanwhile, visit.key ≠ setup.entryKey user id) →
    (∀ happening ∈ happenings, ¬ setup.Touches (setup.entryKey user id) happening) →
      (setup.attend server (.get user id) meanwhile' (happenings.foldl (setup.happen server)
        (setup.attend server (.add user id post) meanwhile state).2)).1 = some post
  /-- What is no post is not given, counts as a miss, and is gone afterwards. -/
  heals : ∀ user id meanwhile s counts bytes, server.sound s →
    server.held s (setup.entryKey user id) = some (.string bytes) →
    (∀ post, Post.ofDocument bytes ≠ .ok post) →
      let ended := setup.attend server (.get user id) meanwhile (s, counts)
      ended.1 = none ∧ ended.2.2 = { counts with misses := counts.misses + 1 } ∧
        server.held ended.2.1 (setup.entryKey user id) = none
  /-- Under all other keys there is what others have left there. -/
  spares : ∀ call meanwhile state key, server.sound state.1 → key ≠ setup.keyOf call →
    server.held (setup.attend server call meanwhile state).2.1 key =
      server.held (server.visitAll state.1 meanwhile) key
  /-- Whatever server it is, and whatever it replies, every lookup is counted. -/
  counts : ∀ {ω : Type} (serve : (command : Command) → ω → ReplyTo command × ω)
    (calls : List CacheCall) (w : ω),
      let stats := (cacheOver setup serve).stats
        (calls.foldl (fun state call => ((cacheOver setup serve).serve call state).2) (w, {}))
      stats.hits + stats.misses = calls.countP CacheCall.looksUp

end

end CacheSetup

/-! ## Visits -/

namespace Visit

variable {key : String} {visits : List Visit} {holdings holdings' : Holdings V}

/-- What visits leave under a key depends on what was there alone. -/
theorem foldl_after_congr (alike : holdings key = holdings' key) :
    visits.foldl after holdings key = visits.foldl after holdings' key := by
  induction visits generalizing holdings holdings' with
  | nil => exact alike
  | cons visit visits ih =>
    refine ih ?_
    by_cases same : key = visit.key
    · rw [after, after, same, Function.update_self, Function.update_self]
    · rw [after, after, Function.update_of_ne same, Function.update_of_ne same, alike]

/-- Visits to other keys leave what is under a key. -/
theorem foldl_after_elsewhere (elsewhere : ∀ visit ∈ visits, visit.key ≠ key) :
    visits.foldl after holdings key = holdings key := by
  induction visits generalizing holdings with
  | nil => rfl
  | cons visit visits ih =>
    have other : key ≠ visit.key := (elsewhere visit List.mem_cons_self).symm
    calc visits.foldl after (after holdings visit) key
        = after holdings visit key :=
          ih fun later member => elsewhere later (List.mem_cons_of_mem visit member)
      _ = holdings key := Function.update_of_ne other _ _

end Visit

namespace SharedServer

variable {server : SharedServer σ V} {s : σ} {holdings : Holdings V}

theorem ActsAsStrings.visitAll (acts : server.ActsAsStrings) (visits : List Visit)
    (holds : server.Holds s holdings) :
    server.Holds (server.visitAll s visits) (visits.foldl Visit.after holdings) := by
  induction visits generalizing s holdings with
  | nil => exact holds
  | cons visit visits ih =>
    obtain ⟨sound, rfl⟩ := holds
    exact ih (acts.visit visit s sound)

/-- The first command finds the server as it is. -/
theorem serveVisited_first (command : Command) (meanwhile : List Visit) :
    server.serveVisited command ⟨s, [[], meanwhile]⟩ =
      ((server.serve command s).1, ⟨(server.serve command s).2, [meanwhile]⟩) :=
  rfl

/-- When one command is all there is to a call, others come after it. -/
theorem settled_once (s : σ) (meanwhile : List Visit) :
    server.settled ⟨s, [meanwhile]⟩ = server.visitAll s meanwhile := by
  rw [settled, List.flatten_singleton]

end SharedServer

/-! ## A server of strings and hashes -/

namespace Server

variable {server : Server} {key : String} {longest : Nat}

/-- What is under each key: a string or a hash. -/
def held (server : Server) : Holdings Fields := fun key =>
  match server.strings.get? key with
  | some bytes => some (.string bytes)
  | none => (server.hashes.get? key).map .other

/-- No key has both a string and a hash. -/
def Separate (server : Server) : Prop :=
  ∀ key, server.strings.get? key = none ∨ server.hashes.get? key = none

/-- The server without anything under a key. -/
def drop (server : Server) (key : String) : Server :=
  { server with strings := server.strings.erase key, hashes := server.hashes.erase key }

/-- The server with a string under a key, whatever was there. -/
def overwrite (server : Server) (key : String) (bytes : Bytes) : Server :=
  (server.drop key).setString key bytes

/-- Carries out a command; what is no string is not looked up, and some lifetimes are refused. -/
def carryOut (longest : Nat) (command : Command) (server : Server) : Reply × Server :=
  match command with
  | .get key =>
    match server.hashes.get? key with
    | some _ =>
      (.error "WRONGTYPE Operation against a key holding the wrong kind of value", server)
    | none => server.execute (.get key)
  | .set key value => (.status "OK", server.overwrite key value)
  | .setEx key seconds value =>
    if 0 < seconds ∧ seconds ≤ longest then (.status "OK", server.overwrite key value)
    else (.error "ERR invalid expire time in 'setex' command", server)
  | command => server.execute command

/-- The server after a visit. -/
def visit (server : Server) : Visit → Server
  | .expiry key => server.drop key
  | .write key bytes => server.overwrite key bytes

/-- The server among others. -/
def shared (longest : Nat) : SharedServer Server Fields where
  serve := carryOut longest
  visit := visit
  sound := Separate
  held := held
  longest := longest

theorem holds_drop (separate : server.Separate) :
    (shared longest).Holds (server.drop key) (Function.update server.held key none) := by
  constructor
  · intro k
    simp only [drop, Bindings.get?_erase]
    split
    · exact .inl rfl
    · exact separate k
  · funext k
    by_cases same : k = key
    · simp [shared, held, drop, Bindings.get?_erase, same]
    · simp [shared, held, drop, Bindings.get?_erase, Function.update_of_ne same, Ne.symm same]

theorem holds_overwrite (separate : server.Separate) (bytes : Bytes) :
    (shared longest).Holds (server.overwrite key bytes)
      (Function.update server.held key (some (.string bytes))) := by
  have dropped : (shared longest).Holds (server.drop key) (Function.update server.held key none) :=
    holds_drop separate
  constructor
  · intro k
    by_cases same : key = k
    · exact .inr ((Bindings.get?_erase key k _).trans (if_pos same))
    · rw [overwrite, setString, Bindings.get?_put, if_neg same]
      exact dropped.1 k
  · funext k
    by_cases same : k = key
    · simp [shared, held, overwrite, setString, Bindings.get?_put, same]
    · simp [shared, held, overwrite, setString, drop, Bindings.get?_put, Bindings.get?_erase,
        Function.update_of_ne same, Ne.symm same]

theorem shared_actsAsStrings (longest : Nat) : (shared longest).ActsAsStrings where
  get key server separate := by
    simp only [shared, carryOut, held]
    cases hash : server.hashes.get? key with
    | some fields =>
      have absent : server.strings.get? key = none :=
        (separate key).resolve_right (by simp [hash])
      rw [absent]
      exact ⟨⟨_, rfl⟩, separate, rfl⟩
    | none =>
      rw [execute]
      cases server.strings.get? key with
      | none => exact ⟨rfl, separate, rfl⟩
      | some bytes => exact ⟨rfl, separate, rfl⟩
  set key value server separate := holds_overwrite separate value
  setEx key seconds value server separate positive short := by
    have taken : carryOut longest (.setEx key seconds value) server =
        (.status "OK", server.overwrite key value) := if_pos ⟨positive, short⟩
    show (shared longest).Holds (carryOut longest (.setEx key seconds value) server).2 _
    rw [taken]
    exact holds_overwrite separate value
  del key server separate := holds_drop separate
  visit visit server separate := by
    cases visit with
    | expiry key => exact holds_drop separate
    | write key bytes => exact holds_overwrite separate bytes

end Server

/-! ## One call -/

namespace CacheSetup

open SharedServer

variable {setup : CacheSetup} {server : SharedServer σ V} {user id key : String}
  {meanwhile : List Visit} {s : σ} {counts : LookupCounts} {bytes : Bytes} {post : Post}

/-- A post is filed under its key.  A lifetime that is shorter than a second is rounded up to one,
so that the server does not refuse it. -/
theorem holds_storeCommand (acts : server.ActsAsStrings) (one : 1 ≤ server.longest)
    (fits : ∀ lifetime ∈ setup.lifetime, lifetime.wholeSeconds ≤ server.longest)
    (sound : server.sound s) :
    server.Holds (server.serve (setup.storeCommand key post) s).2
      (Function.update (server.held s) key (some (.string post.toDocument))) := by
  unfold storeCommand
  split
  next lifetime lasting =>
    have positive : 0 < max lifetime.wholeSeconds 1 := by omega
    have short : max lifetime.wholeSeconds 1 ≤ server.longest :=
      max_le (fits lifetime (Option.mem_def.2 lasting)) one
    exact acts.setEx key _ post.toDocument s sound positive short
  next => exact acts.set key post.toDocument s sound

theorem attend_add (state : σ × LookupCounts) :
    setup.attend server (.add user id post) meanwhile state =
      ((), server.visitAll
        (server.serve (setup.storeCommand (setup.entryKey user id) post) state.1).2 meanwhile,
        state.2) := by
  show ((), server.settled _, state.2) = _
  rw [← settled_once]
  rfl

theorem attend_remove (state : σ × LookupCounts) :
    setup.attend server (.remove user id) meanwhile state =
      ((), server.visitAll (server.serve (.del (setup.entryKey user id)) state.1).2 meanwhile,
        state.2) := by
  show ((), server.settled _, state.2) = _
  rw [← settled_once]
  rfl

/-- What a lookup comes to by its reply.  Others come before the deletion, if there is one. -/
theorem attend_get {reply : Reply} {s' : σ}
    (looked : server.serve (.get (setup.entryKey user id)) s = (reply, s')) :
    setup.attend server (.get user id) meanwhile (s, counts) =
      match Found.ofReply reply with
      | .entry post =>
        (some post, server.visitAll s' meanwhile, { counts with hits := counts.hits + 1 })
      | .undecodable => (none,
          (server.serve (.del (setup.entryKey user id)) (server.visitAll s' meanwhile)).2,
          { counts with misses := counts.misses + 1 })
      | .nothing | .failed =>
        (none, server.visitAll s' meanwhile, { counts with misses := counts.misses + 1 }) := by
  have ran := @run_get setup user id _ server.serveVisited ⟨s, [[], meanwhile]⟩
  rw [serveVisited_first, looked] at ran
  unfold attend
  cases found : Found.ofReply reply with
  | undecodable =>
    rw [found] at ran
    simp only [cacheOver, ran]
    rfl
  | entry post =>
    rw [found] at ran
    simp only [cacheOver, ran, settled_once, LookupCounts.count]
  | nothing =>
    rw [found] at ran
    simp only [cacheOver, ran, settled_once, LookupCounts.count]
  | failed =>
    rw [found] at ran
    simp only [cacheOver, ran, settled_once, LookupCounts.count]

/-- What a lookup can come to: the server holds what others leave there, or that without a string
that is no post. -/
inductive Looks (setup : CacheSetup) (server : SharedServer σ V) (user id : String)
    (meanwhile : List Visit) (s : σ) (counts : LookupCounts) :
    Option Post × (σ × LookupCounts) → Prop where
  | nothing {s' : σ}
      (absent : ∀ bytes, server.held s (setup.entryKey user id) ≠ some (.string bytes))
      (leaves : server.Holds s' (meanwhile.foldl Visit.after (server.held s))) :
      Looks setup server user id meanwhile s counts
        (none, s', { counts with misses := counts.misses + 1 })
  | entry {s' : σ} {bytes : Bytes} {post : Post}
      (there : server.held s (setup.entryKey user id) = some (.string bytes))
      (decodes : Post.ofDocument bytes = .ok post)
      (leaves : server.Holds s' (meanwhile.foldl Visit.after (server.held s))) :
      Looks setup server user id meanwhile s counts
        (some post, s', { counts with hits := counts.hits + 1 })
  | undecodable {s' : σ} {bytes : Bytes}
      (there : server.held s (setup.entryKey user id) = some (.string bytes))
      (never : ∀ post, Post.ofDocument bytes ≠ .ok post)
      (leaves : server.Holds s' (Function.update (meanwhile.foldl Visit.after (server.held s))
        (setup.entryKey user id) none)) :
      Looks setup server user id meanwhile s counts
        (none, s', { counts with misses := counts.misses + 1 })

theorem looks (acts : server.ActsAsStrings) (setup : CacheSetup) (user id : String)
    (meanwhile : List Visit) (counts : LookupCounts) (sound : server.sound s) :
    Looks setup server user id meanwhile s counts
      (setup.attend server (.get user id) meanwhile (s, counts)) := by
  obtain ⟨replied, looked⟩ := acts.get (setup.entryKey user id) s sound
  have leaves := acts.visitAll meanwhile looked
  generalize exchange : server.serve (.get (setup.entryKey user id)) s = exchanged
    at replied leaves
  obtain ⟨reply, s'⟩ := exchanged
  rw [attend_get exchange]
  cases there : server.held s (setup.entryKey user id) with
  | none =>
    rw [there] at replied
    obtain rfl : reply = .nil := replied
    exact .nothing (by simp [there]) leaves
  | some held =>
    rw [there] at replied
    cases held with
    | other value =>
      obtain ⟨line, rfl⟩ : ∃ line, reply = .error line := replied
      exact .nothing (by simp [there]) leaves
    | string bytes =>
      obtain rfl : reply = .bulk bytes := replied
      cases decoded : Post.ofDocument bytes with
      | ok post =>
        simp only [Found.ofReply_bulk, decoded]
        exact .entry there decoded leaves
      | error fault =>
        simp only [Found.ofReply_bulk, decoded]
        refine .undecodable there (by simp [decoded]) ?_
        rw [← leaves.2]
        exact acts.del (setup.entryKey user id) _ leaves.1

/-- A lookup gives what the string under its key decodes to. -/
theorem attend_get_eq_some_iff (acts : server.ActsAsStrings) (sound : server.sound s) :
    (setup.attend server (.get user id) meanwhile (s, counts)).1 = some post ↔
      ∃ bytes, server.held s (setup.entryKey user id) = some (.string bytes) ∧
        Post.ofDocument bytes = .ok post := by
  have looked := looks acts setup user id meanwhile counts sound
  generalize setup.attend server (.get user id) meanwhile (s, counts) = ended at looked
  cases looked with
  | nothing absent leaves => simp [absent]
  | entry there decodes leaves => simp [there, decodes]
  | undecodable there never leaves => simp [there, never]

/-! ## What a call leaves -/

section

variable (acts : server.ActsAsStrings) (one : 1 ≤ server.longest)
  (fits : ∀ lifetime ∈ setup.lifetime, lifetime.wholeSeconds ≤ server.longest)
include acts one fits

/-- A post that is added is under its key, and others come after it. -/
theorem holds_attend_add (user id : String) (post : Post) (meanwhile : List Visit)
    (state : σ × LookupCounts) (sound : server.sound state.1) :
    server.Holds (setup.attend server (.add user id post) meanwhile state).2.1
      (meanwhile.foldl Visit.after (Function.update (server.held state.1)
        (setup.entryKey user id) (some (.string post.toDocument)))) := by
  rw [attend_add]
  exact acts.visitAll meanwhile (holds_storeCommand acts one fits sound)

/-- A call leaves under other keys what others leave there, and the server sound. -/
theorem attend_spares (call : CacheCall) (meanwhile : List Visit) (state : σ × LookupCounts)
    (sound : server.sound state.1) :
    ∃ holdings, server.Holds (setup.attend server call meanwhile state).2.1 holdings ∧
      ∀ key, key ≠ setup.keyOf call →
        holdings key = meanwhile.foldl Visit.after (server.held state.1) key := by
  obtain ⟨s, counts⟩ := state
  cases call with
  | add user id post =>
    refine ⟨_, holds_attend_add acts one fits user id post meanwhile (s, counts) sound, ?_⟩
    intro key other
    exact Visit.foldl_after_congr (Function.update_of_ne other _ _)
  | remove user id =>
    rw [attend_remove]
    refine ⟨_, acts.visitAll meanwhile (acts.del (setup.entryKey user id) s sound), ?_⟩
    exact fun key other => Visit.foldl_after_congr (Function.update_of_ne other _ _)
  | get user id =>
    have looked := looks acts setup user id meanwhile counts sound
    generalize setup.attend server (.get user id) meanwhile (s, counts) = ended at looked
    cases looked with
    | nothing absent leaves => exact ⟨_, leaves, fun _ _ => rfl⟩
    | entry there decodes leaves => exact ⟨_, leaves, fun _ _ => rfl⟩
    | undecodable there never leaves =>
      exact ⟨_, leaves, fun key other => Function.update_of_ne other _ _⟩

theorem sound_happen (happening : Happening) (state : σ × LookupCounts)
    (sound : server.sound state.1) : server.sound (setup.happen server state happening).1 := by
  cases happening with
  | visit others => exact (acts.visit others state.1 sound).1
  | call call meanwhile =>
    obtain ⟨_, leaves, _⟩ := attend_spares acts one fits call meanwhile state sound
    exact leaves.1

/-- The document of a regular post stays under a key that nothing touches. -/
theorem happen_keeps {state : σ × LookupCounts} {happening : Happening} (regular : post.Regular)
    (sound : server.sound state.1)
    (there : server.held state.1 key = some (.string post.toDocument))
    (untouched : ¬ setup.Touches key happening) :
    server.held (setup.happen server state happening).1 key =
      some (.string post.toDocument) := by
  cases happening with
  | visit others =>
    rw [happen, (acts.visit others state.1 sound).2]
    exact (Function.update_of_ne (fun same => untouched same.symm) _ _).trans there
  | call call meanwhile =>
    obtain ⟨lookup, elsewhere⟩ := not_or.1 untouched
    have still : meanwhile.foldl Visit.after (server.held state.1) key =
        some (.string post.toDocument) :=
      (Visit.foldl_after_elsewhere
        (fun visit member same => elsewhere ⟨visit, member, same⟩)).trans there
    by_cases same : key = setup.keyOf call
    · -- only a lookup may be about the key, and it finds a post
      cases call with
      | add user id post' => exact absurd ⟨rfl, same.symm⟩ lookup
      | remove user id => exact absurd ⟨rfl, same.symm⟩ lookup
      | get user id =>
        have looked := looks acts setup user id meanwhile state.2 sound
        rw [happen]
        generalize setup.attend server (.get user id) meanwhile state = ended at looked
        cases looked with
        | nothing absent leaves => rw [leaves.2, still]
        | entry found decodes leaves => rw [leaves.2, still]
        | undecodable found never leaves =>
          rw [same] at there
          obtain rfl := Held.string.inj (Option.some.inj (found.symm.trans there))
          exact absurd (Post.ofDocument_toDocument regular) (never post)
    · obtain ⟨holdings, leaves, spared⟩ := attend_spares acts one fits call meanwhile state sound
      rw [happen, leaves.2, spared key same, still]

theorem happenings_keep (regular : post.Regular) (happenings : List Happening) :
    ∀ {state : σ × LookupCounts}, server.sound state.1 →
      server.held state.1 key = some (.string post.toDocument) →
      (∀ happening ∈ happenings, ¬ setup.Touches key happening) →
        server.sound (happenings.foldl (setup.happen server) state).1 ∧
          server.held (happenings.foldl (setup.happen server) state).1 key =
            some (.string post.toDocument) := by
  induction happenings with
  | nil => exact fun sound there _ => ⟨sound, there⟩
  | cons happening happenings ih =>
    intro state sound there untouched
    refine ih (sound_happen acts one fits happening state sound)
      (happen_keeps acts one fits regular sound there (untouched happening List.mem_cons_self)) ?_
    exact fun later member => untouched later (List.mem_cons_of_mem happening member)

end

/-! ## Counting -/

/-- A call counts as a lookup if it is one, whatever the server replies. -/
theorem lookups_serve {ω : Type} (serve : (command : Command) → ω → ReplyTo command × ω)
    (call : CacheCall) (state : ω × LookupCounts) :
    ((cacheOver setup serve).serve call state).2.2.lookups =
      state.2.lookups + call.looksUp.toNat := by
  cases call with
  | add user id post => rfl
  | remove user id => rfl
  | get user id =>
    simp only [cacheOver]
    cases ((setup.perform (.get user id)).run serve state.1).1 with
    | none => rfl
    | some post => exact Nat.add_right_comm state.2.hits 1 state.2.misses

theorem lookups_run {ω : Type} (serve : (command : Command) → ω → ReplyTo command × ω)
    (calls : List CacheCall) : ∀ state : ω × LookupCounts,
      (calls.foldl (fun state call => ((cacheOver setup serve).serve call state).2)
        state).2.lookups = state.2.lookups + calls.countP CacheCall.looksUp := by
  induction calls with
  | nil => exact fun _ => rfl
  | cons call calls ih =>
    intro state
    rw [List.foldl_cons, ih, lookups_serve, List.countP_cons, Nat.add_assoc,
      Nat.add_comm (calls.countP _)]
    cases call.looksUp <;> rfl

/-- **The cache in a key-value server is a forgetful map that heals itself**, under every prefix of
keys and with every lifetime of entries that the server takes. -/
theorem forgetfulMap (setup : CacheSetup) (server : SharedServer σ V)
    (acts : server.ActsAsStrings) (one : 1 ≤ server.longest)
    (fits : ∀ lifetime ∈ setup.lifetime, lifetime.wholeSeconds ≤ server.longest) :
    setup.ForgetfulMap server where
  lasts happening state sound := sound_happen acts one fits happening state sound
  gives _ _ _ _ _ _ sound := attend_get_eq_some_iff acts sound
  keeps user id post meanwhile _ happenings state sound regular elsewhere untouched := by
    obtain ⟨added, holds⟩ := holds_attend_add acts one fits user id post meanwhile state sound
    have there : server.held (setup.attend server (.add user id post) meanwhile state).2.1
        (setup.entryKey user id) = some (.string post.toDocument) := by
      rw [holds, Visit.foldl_after_elsewhere elsewhere, Function.update_self]
    obtain ⟨lasting, kept⟩ := happenings_keep acts one fits regular happenings added there untouched
    exact (attend_get_eq_some_iff acts lasting).2
      ⟨post.toDocument, kept, Post.ofDocument_toDocument regular⟩
  heals user id meanwhile s counts bytes sound there never := by
    have looked := looks acts setup user id meanwhile counts sound
    generalize setup.attend server (.get user id) meanwhile (s, counts) = ended at looked
    cases looked with
    | nothing absent leaves => exact absurd there (absent bytes)
    | entry found decodes leaves =>
      obtain rfl := Held.string.inj (Option.some.inj (found.symm.trans there))
      exact absurd decodes (never _)
    | undecodable found _ leaves =>
      refine ⟨rfl, rfl, ?_⟩
      rw [leaves.2, Function.update_self]
  spares call meanwhile state key sound other := by
    obtain ⟨holdings, leaves, spared⟩ := attend_spares acts one fits call meanwhile state sound
    rw [leaves.2, spared key other, (acts.visitAll meanwhile ⟨sound, rfl⟩).2]
  counts serve calls w := (lookups_run serve calls (w, {})).trans (Nat.zero_add _)

/-- At a server that takes lifetimes of up to `2 ^ 63 - 1` milliseconds, entries may live for half a
second. -/
theorem forgetfulMap_halfSecond :
    (Server.shared 9223372036854775).ActsAsStrings ∧ 1 ≤ 9223372036854775 ∧
      (∀ lifetime ∈ some (Duration.ofNanos 500000000), lifetime.wholeSeconds ≤ 9223372036854775) ∧
      (withLifetime {} (Duration.ofNanos 500000000)).ForgetfulMap
        (Server.shared 9223372036854775) := by
  have acts := Server.shared_actsAsStrings 9223372036854775
  have fits : ∀ lifetime ∈ some (Duration.ofNanos 500000000),
      lifetime.wholeSeconds ≤ 9223372036854775 := by
    rintro _ ⟨⟩
    decide
  exact ⟨acts, by decide, fits, forgetfulMap _ _ acts (by decide) fits⟩

end CacheSetup

end PostStore.Redis
