import PostStore.Proofs.Listings
import PostStore.Proofs.Redis.Server
import PostStore.Proofs.Settings.Loading
import PostStore.Proofs.Weather
import PostStore.Wiring.Connect
/-!
# A store and a cache in one key-value server

Store and cache may live in the same server, and their keys start with the same text.  What a
command does depends on its key alone, and the two never name the same key, because the store goes
on with one word and the cache with another.  So nobody can tell whether they share the server or
have one each.
-/

namespace PostStore

/-! ## What a dialogue can ask -/

namespace Dialogue

variable {Q : Type} {R : Q → Type} {α β σ σ' : Type} {P : Q → Prop}

/-- Every question that a dialogue can come to has a property, whatever the replies. -/
def Asks (P : Q → Prop) : Dialogue Q R α → Prop
  | done _ => True
  | ask question next => P question ∧ ∀ reply, (next reply).Asks P

theorem Asks.bind {d : Dialogue Q R α} {f : α → Dialogue Q R β} (first : d.Asks P)
    (rest : ∀ value, (f value).Asks P) : (d.bind f).Asks P := by
  induction d with
  | done value => exact rest value
  | ask question next ih => exact ⟨first.1, fun reply => ih reply (first.2 reply)⟩

/-- A talk asks what its parts ask. -/
theorem Asks.talk_bind {ε : Type} {talk : ExceptT ε (Dialogue Q R) α}
    {next : α → ExceptT ε (Dialogue Q R) β} (first : talk.run.Asks P)
    (rest : ∀ value, (next value).run.Asks P) : (talk >>= next).run.Asks P := by
  refine first.bind fun result => ?_
  cases result with
  | ok value => exact rest value
  | error e => trivial

/-- Servers that reply alike to all questions of a dialogue, in related states, bring it to the same
end, and their states stay related. -/
theorem Asks.run_related {serve : (question : Q) → σ → R question × σ}
    {serve' : (question : Q) → σ' → R question × σ'} {related : σ → σ' → Prop}
    {d : Dialogue Q R α} (asks : d.Asks P)
    (step : ∀ question, P question → ∀ s s', related s s' →
      (serve question s).1 = (serve' question s').1 ∧
        related (serve question s).2 (serve' question s').2) :
    ∀ {s : σ} {s' : σ'}, related s s' →
      (d.run serve s).1 = (d.run serve' s').1 ∧ related (d.run serve s).2 (d.run serve' s').2 := by
  induction d with
  | done value => exact fun start => ⟨rfl, start⟩
  | ask question next ih =>
    intro s s' start
    obtain ⟨alike, later⟩ := step question asks.1 s s' start
    have rest := ih (serve question s).1 (asks.2 _) later
    simp only [run, ← alike]
    exact rest

theorem asks_any (d : Dialogue Q R α) : d.Asks fun _ => True := by
  induction d with
  | done value => trivial
  | ask question next ih => exact ⟨trivial, ih⟩

end Dialogue

/-! ## Keys -/

namespace Redis

/-- The key that a command names. -/
def Command.key : Command → String
  | .hset key _ _ | .hget key _ | .hdel key _ | .hscan key _ _ | .set key _ | .setEx key _ _
  | .get key | .del key => key

/-- Whether a key is that of the hash of some user's posts. -/
def StoreSetup.Names (setup : StoreSetup) (key : String) : Prop := ∃ user, key = setup.userKey user

/-- Whether a key is that of the entry of some post. -/
def CacheSetup.Names (setup : CacheSetup) (key : String) : Prop :=
  ∃ user id, key = setup.entryKey user id

section Asking

variable (storeSetup : StoreSetup) (cacheSetup : CacheSetup)

theorem asks_send {P : Command → Prop} {command : Command} (allowed : P command) :
    (send command).run.Asks P :=
  ⟨allowed, fun _ => trivial⟩

theorem asks_file (post : Post) :
    (file storeSetup post).run.Asks fun command => storeSetup.Names command.key :=
  (asks_send ⟨post.user, rfl⟩).talk_bind fun _ => trivial

theorem asks_find (user id : String) :
    (find storeSetup user id).run.Asks fun command => storeSetup.Names command.key := by
  refine (asks_send ⟨user, rfl⟩).talk_bind fun reply => ?_
  refine Dialogue.Asks.talk_bind trivial fun document => ?_
  cases document <;> trivial

/-- The store names keys of hashes of posts only. -/
theorem asks_perform_store (call : Call) :
    (perform storeSetup call).run.Asks fun command => storeSetup.Names command.key := by
  cases call with
  | create user data fresh => exact asks_file storeSetup _
  | read user id => exact asks_find storeSetup user id
  | readAll user => trivial
  | update user id data clock =>
    refine (asks_find storeSetup user id).talk_bind fun post => ?_
    cases post.withData? data clock with
    | none => trivial
    | some changed => exact asks_file storeSetup changed
  | delete user id => exact (asks_send ⟨user, rfl⟩).talk_bind fun _ => trivial

/-- A listing names the key of its hash only. -/
theorem asks_fill {mark : Mark} (named : storeSetup.Names mark.key) (limit : Nat) :
    (fill limit mark).run.Asks fun command => storeSetup.Names command.key := by
  induction limit generalizing mark with
  | zero => trivial
  | succ limit ih =>
    refine (asks_send named).talk_bind fun reply => ?_
    refine Dialogue.Asks.talk_bind trivial fun part => ?_
    dsimp only
    split
    · trivial
    · split
      · exact ih named
      · trivial

/-- A listing goes on in the hash in which it began. -/
theorem ends_fill_key (limit : Nat) (mark : Mark) :
    (fill limit mark).run.Ends fun result =>
      ∀ page next, result = .ok (page, some next) → next.key = mark.key := by
  induction limit generalizing mark with
  | zero =>
    intro page next ended
    cases ended
  | succ limit ih =>
    refine ends_send_bind _ (fun _ _ _ ended => nomatch ended) fun reply => ?_
    refine ends_understand_bind _ (fun _ _ _ ended => nomatch ended) fun part => ?_
    dsimp only
    split
    · intro page next ended
      cases ended
    · split
      · exact ih { mark with cursor := part.1, seen := (unseen mark.seen part.2).2 }
      · intro page next ended
        cases ended
        rfl

/-- The cache names keys of entries only. -/
theorem asks_perform_cache (call : CacheCall) :
    (cacheSetup.perform call).Asks fun command => cacheSetup.Names command.key := by
  cases call with
  | get user id =>
    refine ⟨⟨user, id, rfl⟩, fun reply => ?_⟩
    dsimp only
    split
    · trivial
    · exact ⟨⟨user, id, rfl⟩, fun _ => trivial⟩
    · trivial
    · trivial
  | add user id post =>
    refine ⟨⟨user, id, ?_⟩, fun _ => trivial⟩
    unfold CacheSetup.storeCommand
    cases cacheSetup.lifetime <;> rfl
  | remove user id => exact ⟨⟨user, id, rfl⟩, fun _ => trivial⟩

end Asking

/-- Keys that go on with different words after a common start differ. -/
theorem names_apart {storeSetup : StoreSetup} {cacheSetup : CacheSetup} {start key : String}
    (posts : storeSetup.keyPrefix = start ++ "posts:")
    (entries : cacheSetup.keyPrefix = start ++ "cache:")
    (named : storeSetup.Names key) : ¬ cacheSetup.Names key := by
  rintro ⟨u, id, same⟩
  obtain ⟨user, rfl⟩ := named
  rw [StoreSetup.userKey, CacheSetup.entryKey, posts, entries] at same
  have letters := congrArg String.toList same
  simp only [String.toList_append, List.append_assoc, List.append_cancel_left_eq] at letters
  have first : 'p' = 'c' := (List.cons.inj letters).1
  exact absurd first (by decide)

/-! ## Servers by key -/

section Contract

variable {σ V : Type}

/-- In sound states a command depends on what the server holds under its key, and changes only
that; how long a scan can take depends on it too.  What is held under a key may include what will
become of it: when it expires, or which commands about it will fail. -/
structure ActsByKey (serve : (command : Command) → σ → ReplyTo command × σ)
    (bound : σ → String → Nat) (sound : σ → Prop) (view : σ → String → V)
    (act : Command → V → Reply × V) : Prop where
  keeps : ∀ command s, sound s → sound (serve command s).2
  reply : ∀ command s, sound s → (serve command s).1 = (act command (view s command.key)).1
  here : ∀ command s, sound s →
    view (serve command s).2 command.key = (act command (view s command.key)).2
  elsewhere : ∀ command s key, sound s → key ≠ command.key →
    view (serve command s).2 key = view s key
  bounded : ∀ s s' key, sound s → sound s' → view s key = view s' key → bound s key = bound s' key

end Contract

/-- Who sends a command. -/
inductive Sender where
  | store
  | cache
  deriving DecidableEq

/-- Commands with their senders, the latest first. -/
abbrev Log := List (Sender × Command)

/-- Fetches a page of a listing. -/
def fetchOver {σ : Type} (serve : (command : Command) → σ → ReplyTo command × σ)
    (bound : σ → String → Nat) (mark : Mark) (s : σ) :
    Except (Cursor.Fault String) (Cursor.Page Mark String) × σ :=
  Cursor.atOnce (fun mark s => converseWith serve (fill (bound s mark.key) mark) s) mark s

/-- A server that notes who sends it what. -/
def noting {σ : Type} (serve : (command : Command) → σ → ReplyTo command × σ) (sender : Sender) :
    (command : Command) → σ × Log → ReplyTo command × (σ × Log) := fun command (s, log) =>
  ((serve command s).1, (serve command s).2, (sender, command) :: log)

/-! ## Clients -/

end Redis

/-- What a client can do: call the store, or ask one of the listings it has opened. -/
inductive Request where
  | call (made : Call)
  | ask (listing : Nat) (question : FeedAsk)
  deriving DecidableEq

/-- What comes of it; a listing that has not been opened gives nothing. -/
abbrev Request.Reply : Request → Type
  | .call made => made.Answer Unit
  | .ask _ question => Option question.Reply

/-- A medium, and the listings that have been opened on it. -/
structure Desk (ω κ : Type) where
  medium : ω
  listings : List κ := []

/-- The listing that a call opens, if any. -/
def Call.opened {κ : Type} : (call : Call) → call.Answer κ → List κ
  | .readAll _, .ok cursor => [cursor]
  | .readAll _, .error _ => []
  | .create .., _ | .read .., _ | .update .., _ | .delete .., _ => []

/-- Attends to a request. -/
def Store.attend {ω κ : Type} (store : Store ω κ) :
    (request : Request) → Desk ω κ → request.Reply × Desk ω κ
  | .call made, desk =>
    let (answer, medium) := store.serve made desk.medium
    (made.mapAnswer (fun _ => ()) answer, ⟨medium, desk.listings ++ made.opened answer⟩)
  | .ask listing question, desk =>
    match desk.listings[listing]? with
    | none => (none, desk)
    | some cursor =>
      let (reply, cursor, medium) := store.feed.serve question (cursor, desk.medium)
      (some reply, ⟨medium, desk.listings.set listing cursor⟩)

/-- Attends to a request and puts it beside what came of it. -/
def Store.attended {ω κ : Type} (store : Store ω κ) (request : Request) (desk : Desk ω κ) :
    ((request : Request) × request.Reply) × Desk ω κ :=
  (⟨request, (store.attend request desk).1⟩, (store.attend request desk).2)

/-- The desk after requests made one after the other. -/
def Store.deskAfter {ω κ : Type} (store : Store ω κ) : List Request → Desk ω κ → Desk ω κ
  | [], desk => desk
  | request :: rest, desk => store.deskAfter rest (store.attend request desk).2

/-! ## Stores that do alike -/

section Related

variable {ω ω' κ μ δ : Type}

/-- Desks over related media, with the same listings, each with a property. -/
structure Desk.Alike (related : ω → ω' → Prop) (usable : κ → Prop) (desk : Desk ω κ)
    (desk' : Desk ω' κ) : Prop where
  media : related desk.medium desk'.medium
  same : desk.listings = desk'.listings
  usable : ∀ cursor ∈ desk.listings, usable cursor

/-- In related states, two stores answer alike, open the same listings and give the same from
them. -/
structure Store.DoesAs (store : Store ω κ) (store' : Store ω' κ) (related : ω → ω' → Prop)
    (usable : κ → Prop) : Prop where
  calls : ∀ call w w', related w w' → (store.serve call w).1 = (store'.serve call w').1 ∧
    related (store.serve call w).2 (store'.serve call w').2
  opens : ∀ (call : Call) w, ∀ cursor ∈ call.opened (store.serve call w).1, usable cursor
  asks : ∀ question cursor w w', related w w' → usable cursor →
    (store.feed.serve question (cursor, w)).1 = (store'.feed.serve question (cursor, w')).1 ∧
    (store.feed.serve question (cursor, w)).2.1 = (store'.feed.serve question (cursor, w')).2.1 ∧
    usable (store.feed.serve question (cursor, w)).2.1 ∧
    related (store.feed.serve question (cursor, w)).2.2
      (store'.feed.serve question (cursor, w')).2.2

variable {store : Store ω κ} {store' : Store ω' κ} {related : ω → ω' → Prop} {usable : κ → Prop}
  {desk : Desk ω κ} {desk' : Desk ω' κ}

/-- They attend to a request alike. -/
theorem Store.DoesAs.attend (does : store.DoesAs store' related usable)
    (alike : desk.Alike related usable desk') (request : Request) :
    (store.attend request desk).1 = (store'.attend request desk').1 ∧
      (store.attend request desk).2.Alike related usable (store'.attend request desk').2 := by
  cases request with
  | call made =>
    obtain ⟨answer, next⟩ := does.calls made _ _ alike.media
    refine ⟨congrArg (made.mapAnswer fun _ => ()) answer, next, ?_, ?_⟩
    · show desk.listings ++ _ = desk'.listings ++ _
      rw [alike.same, answer]
    · intro cursor member
      rcases List.mem_append.1 member with before | new
      · exact alike.usable cursor before
      · exact does.opens made _ cursor new
  | ask listing question =>
    simp only [Store.attend, ← alike.same]
    cases open_ : desk.listings[listing]? with
    | none => exact ⟨rfl, alike⟩
    | some cursor =>
      obtain ⟨reply, moved, still, next⟩ := does.asks question cursor _ _ alike.media
        (alike.usable cursor (List.mem_of_getElem? open_))
      refine ⟨congrArg some reply, next, ?_, ?_⟩
      · exact congrArg (desk.listings.set listing) moved
      · intro other member
        rcases List.mem_or_eq_of_mem_set member with before | rfl
        · exact alike.usable other before
        · exact still

/-- They attend to requests made one after the other alike. -/
theorem Store.DoesAs.deskAfter (does : store.DoesAs store' related usable)
    (requests : List Request) :
    ∀ {desk : Desk ω κ} {desk' : Desk ω' κ}, desk.Alike related usable desk' →
      replies store.attended requests desk = replies store'.attended requests desk' ∧
        (store.deskAfter requests desk).Alike related usable (store'.deskAfter requests desk') := by
  induction requests with
  | nil => exact fun alike => ⟨rfl, alike⟩
  | cons request rest ih =>
    intro desk desk' alike
    obtain ⟨reply, next⟩ := does.attend alike request
    obtain ⟨others, final⟩ := ih next
    refine ⟨?_, final⟩
    rw [replies, replies]
    simp only [Store.attended, reply]
    exact congrArg (List.cons _) others

/-- Advancing over related media reaches the same when fetching does. -/
theorem Cursor.next_related {fetch : μ → ω → Except (Cursor.Fault δ) (Cursor.Page μ δ) × ω}
    {fetch' : μ → ω' → Except (Cursor.Fault δ) (Cursor.Page μ δ) × ω'} {fit : μ → Prop}
    (fetches : ∀ mark w w', fit mark → related w w' → (fetch mark w).1 = (fetch' mark w').1 ∧
      related (fetch mark w).2 (fetch' mark w').2 ∧
      ∀ page next, (fetch mark w).1 = .ok (page, some next) → fit next)
    {cursor : Cursor μ δ} (usable : ∀ mark, cursor.mark = some mark → fit mark) {w : ω} {w' : ω'}
    (start : related w w') :
    (Cursor.next fetch cursor w).1 = (Cursor.next fetch' cursor w').1 ∧
      (Cursor.next fetch cursor w).2.1 = (Cursor.next fetch' cursor w').2.1 ∧
      (∀ mark, (Cursor.next fetch cursor w).2.1.mark = some mark → fit mark) ∧
      related (Cursor.next fetch cursor w).2.2 (Cursor.next fetch' cursor w').2.2 := by
  have advanced (cursor : Cursor μ δ) : cursor.advance.2.mark = cursor.mark := by
    rw [Cursor.advance]
    split <;> rfl
  obtain ⟨mark?, buffer, current, closed⟩ := cursor
  cases closed with
  | true => exact ⟨rfl, rfl, usable, start⟩
  | false =>
    cases buffer with
    | cons element rest => exact ⟨rfl, rfl, usable, start⟩
    | nil =>
      cases mark? with
      | none => exact ⟨rfl, rfl, usable, start⟩
      | some mark =>
        obtain ⟨same, next, goesOn⟩ := fetches mark w w' (usable mark rfl) start
        simp only [Cursor.next, Bool.false_eq_true, if_false]
        rcases fetched : fetch mark w with ⟨result, after⟩
        rcases fetched' : fetch' mark w' with ⟨result', after'⟩
        rw [fetched, fetched'] at same next
        rw [fetched] at goesOn
        obtain rfl : result = result' := same
        cases result with
        | error fault =>
          refine ⟨rfl, rfl, fun mark marked => ?_, next⟩
          cases marked
        | ok page =>
          refine ⟨rfl, rfl, fun mark marked => goesOn page.1 mark ?_, next⟩
          rw [advanced] at marked
          exact congrArg Except.ok (Prod.ext rfl marked)

end Related

/-! ## One server or two -/

namespace Redis

section Sharing

variable {σ V : Type} (serve : (command : Command) → σ → ReplyTo command × σ)
  (bound : σ → String → Nat) (storeSetup : StoreSetup) (cacheSetup : CacheSetup)

/-- The store and the cache in front of it in one server, which notes the commands of both. -/
def sharedStore : Store ((σ × Log) × LookupCounts) Scan :=
  ((storeOver (noting serve .store) storeSetup fun w => bound w.1).within .first).behind
    (cacheOver cacheSetup (noting serve .cache))

/-- The store and the cache in front of it, each in a server of its own. -/
def separateStore : Store (σ × (σ × LookupCounts)) Scan :=
  (storeOver serve storeSetup bound).cachedBy (cacheOver cacheSetup serve)

/-- Which keys a sender names. -/
def Sender.Names : Sender → String → Prop
  | .store => storeSetup.Names
  | .cache => cacheSetup.Names

/-- The server of each sender, of two. -/
def ofTwo (forStore forCache : σ) : Sender → σ
  | .store => forStore
  | .cache => forCache

/-- One server holds under the keys of each sender what that sender's own server holds there, and
nobody has named another's key to it. -/
structure Apart (sound : σ → Prop) (view : σ → String → V) (w : σ × Log) (each : Sender → σ) :
    Prop where
  sound : sound w.1 ∧ ∀ sender, sound (each sender)
  views : ∀ sender key, sender.Names storeSetup cacheSetup key →
    view w.1 key = view (each sender) key
  noted : ∀ sent ∈ w.2, sent.1.Names storeSetup cacheSetup sent.2.key

variable {serve bound storeSetup cacheSetup} {sound : σ → Prop} {view : σ → String → V}
  {act : Command → V → Reply × V} {w : σ × Log} {each each' : Sender → σ}

/-- A command that names a key of its sender is served alike by the sender's own server. -/
theorem Apart.step (acts : ActsByKey serve bound sound view act)
    (disjoint : ∀ key, storeSetup.Names key → ¬ cacheSetup.Names key)
    (apart : Apart storeSetup cacheSetup sound view w each) (sender : Sender) {command : Command}
    (named : sender.Names storeSetup cacheSetup command.key)
    (after : each' sender = (serve command (each sender)).2)
    (others : ∀ other, other ≠ sender → each' other = each other) :
    (noting serve sender command w).1 = (serve command (each sender)).1 ∧
      Apart storeSetup cacheSetup sound view (noting serve sender command w).2 each' := by
  obtain ⟨⟨good, goods⟩, views, noted⟩ := apart
  have same := views sender command.key named
  refine ⟨?_, ⟨acts.keeps command w.1 good, fun other => ?_⟩, fun other key names => ?_, ?_⟩
  · show (serve command w.1).1 = _
    rw [acts.reply command w.1 good, acts.reply command _ (goods sender), same]
  · by_cases mine : other = sender
    · subst mine
      rw [after]
      exact acts.keeps command _ (goods other)
    · rw [others other mine]
      exact goods other
  · show view (serve command w.1).2 key = _
    by_cases here : key = command.key
    · -- only the sender names this key
      subst here
      have mine : other = sender := by
        cases other <;> cases sender
        · rfl
        · exact absurd named (disjoint _ names)
        · exact absurd names (disjoint _ named)
        · rfl
      subst mine
      rw [after, acts.here command w.1 good, acts.here command _ (goods other), same]
    · rw [acts.elsewhere command w.1 key good here, views other key names]
      by_cases mine : other = sender
      · subst mine
        rw [after, acts.elsewhere command _ key (goods other) here]
      · rw [others other mine]
  · intro sent member
    rcases List.mem_cons.1 member with rfl | before
    · exact named
    · exact noted sent before

/-- A talk of the store is brought to the same end by the store's own server. -/
theorem Apart.run_store {α : Type} (acts : ActsByKey serve bound sound view act)
    (disjoint : ∀ key, storeSetup.Names key → ¬ cacheSetup.Names key) {forStore forCache : σ}
    {talk : Dialogue Command ReplyTo α}
    (asks : talk.Asks fun command => storeSetup.Names command.key)
    (apart : Apart storeSetup cacheSetup sound view w (ofTwo forStore forCache)) :
    (talk.run (noting serve .store) w).1 = (talk.run serve forStore).1 ∧
      Apart storeSetup cacheSetup sound view (talk.run (noting serve .store) w).2
        (ofTwo (talk.run serve forStore).2 forCache) := by
  let related : σ × Log → σ → Prop := fun w s =>
    Apart storeSetup cacheSetup sound view w (ofTwo s forCache)
  have step : ∀ command, storeSetup.Names command.key → ∀ w s, related w s →
      (noting serve .store command w).1 = (serve command s).1 ∧
        related (noting serve .store command w).2 (serve command s).2 := by
    intro command named w s apart
    refine apart.step acts disjoint .store named rfl fun other elsewhere => ?_
    cases other
    · exact absurd rfl elsewhere
    · rfl
  exact asks.run_related step apart

/-- A talk of the cache is brought to the same end by the cache's own server. -/
theorem Apart.run_cache {α : Type} (acts : ActsByKey serve bound sound view act)
    (disjoint : ∀ key, storeSetup.Names key → ¬ cacheSetup.Names key) {forStore forCache : σ}
    {talk : Dialogue Command ReplyTo α}
    (asks : talk.Asks fun command => cacheSetup.Names command.key)
    (apart : Apart storeSetup cacheSetup sound view w (ofTwo forStore forCache)) :
    (talk.run (noting serve .cache) w).1 = (talk.run serve forCache).1 ∧
      Apart storeSetup cacheSetup sound view (talk.run (noting serve .cache) w).2
        (ofTwo forStore (talk.run serve forCache).2) := by
  let related : σ × Log → σ → Prop := fun w s =>
    Apart storeSetup cacheSetup sound view w (ofTwo forStore s)
  have step : ∀ command, cacheSetup.Names command.key → ∀ w s, related w s →
      (noting serve .cache command w).1 = (serve command s).1 ∧
        related (noting serve .cache command w).2 (serve command s).2 := by
    intro command named w s apart
    refine apart.step acts disjoint .cache named rfl fun other elsewhere => ?_
    cases other
    · rfl
    · exact absurd rfl elsewhere
  exact asks.run_related step apart

/-- The media of the two ways to set up a store and a cache, when nobody could tell them apart. -/
def Indistinct (storeSetup : StoreSetup) (cacheSetup : CacheSetup) (sound : σ → Prop)
    (view : σ → String → V) (one : (σ × Log) × LookupCounts) (two : σ × (σ × LookupCounts)) :
    Prop :=
  Apart storeSetup cacheSetup sound view one.1 (ofTwo two.1 two.2.1) ∧ one.2 = two.2.2

/-- Whether a listing is of a hash that the store names. -/
def Scan.Named (setup : StoreSetup) (scan : Scan) : Prop :=
  ∀ mark, scan.mark = some mark → setup.Names mark.key

/-- What the coordinator asks of the store or the cache is answered alike. -/
theorem Indistinct.ask (acts : ActsByKey serve bound sound view act)
    (disjoint : ∀ key, storeSetup.Names key → ¬ cacheSetup.Names key)
    (question : Coordinator.Ask) {one : (σ × Log) × LookupCounts} {two : σ × (σ × LookupCounts)}
    (alike : Indistinct storeSetup cacheSetup sound view one two) :
    let shared := Coordinator.serve
      ((storeOver (noting serve .store) storeSetup fun w => bound w.1).within .first)
      (cacheOver cacheSetup (noting serve .cache)) question one
    let separate := Coordinator.serve ((storeOver serve storeSetup bound).within .first)
      ((cacheOver cacheSetup serve).within .second) question two
    shared.1 = separate.1 ∧ Indistinct storeSetup cacheSetup sound view shared.2 separate.2 := by
  intro shared separate
  obtain ⟨apart, counted⟩ := alike
  cases question with
  | store call =>
    obtain ⟨answer, next⟩ :=
      apart.run_store acts disjoint (asks_perform_store storeSetup call)
    exact ⟨answer, next, counted⟩
  | cache call =>
    obtain ⟨answer, next⟩ :=
      apart.run_cache acts disjoint (asks_perform_cache cacheSetup call)
    refine ⟨answer, next, ?_⟩
    show one.2.count call _ = two.2.2.count call _
    rw [counted]
    exact congrArg (two.2.2.count call) answer

/-- A page of a listing is fetched alike, and the listing goes on in its hash. -/
theorem Apart.fetch (acts : ActsByKey serve bound sound view act)
    (disjoint : ∀ key, storeSetup.Names key → ¬ cacheSetup.Names key) {forStore forCache : σ}
    {mark : Mark} (fit : storeSetup.Names mark.key)
    (apart : Apart storeSetup cacheSetup sound view w (ofTwo forStore forCache)) :
    (fetchOver (noting serve .store) (fun w => bound w.1) mark w).1 =
        (fetchOver serve bound mark forStore).1 ∧
      Apart storeSetup cacheSetup sound view
        (fetchOver (noting serve .store) (fun w => bound w.1) mark w).2
        (ofTwo (fetchOver serve bound mark forStore).2 forCache) ∧
      ∀ page next, (fetchOver (noting serve .store) (fun w => bound w.1) mark w).1 =
        .ok (page, some next) → storeSetup.Names next.key := by
  have enough : bound forStore mark.key = bound w.1 mark.key :=
    (acts.bounded _ _ _ apart.sound.1 (apart.sound.2 .store)
      (apart.views .store mark.key fit)).symm
  obtain ⟨same, next⟩ :=
    apart.run_store acts disjoint (asks_fill storeSetup fit (bound w.1 mark.key))
  simp only [fetchOver, Cursor.atOnce, Prod.map, enough]
  refine ⟨congrArg (Except.mapError _) same, next, fun page next given => ?_⟩
  rcases filled : converseWith (noting serve .store) (fill (bound w.1 mark.key) mark) w with
    ⟨e | found, w'⟩
  · rw [filled] at given
    cases given
  · rw [filled] at given
    obtain rfl := Except.ok.inj given
    rw [(ends_fill_key (bound w.1 mark.key) mark).run (noting serve .store) w page next
      (congrArg Prod.fst filled)]
    exact fit

/-- **A store and a cache that share a server do as those that have one each.** -/
theorem sharedStore_doesAs (acts : ActsByKey serve bound sound view act)
    (disjoint : ∀ key, storeSetup.Names key → ¬ cacheSetup.Names key) :
    (sharedStore serve bound storeSetup cacheSetup).DoesAs
      (separateStore serve bound storeSetup cacheSetup)
      (Indistinct storeSetup cacheSetup sound view) (Scan.Named storeSetup) where
  calls call one two alike :=
    (Dialogue.asks_any (Coordinator.perform call)).run_related
      (fun question _ _ _ alike => alike.ask acts disjoint question) alike
  opens call one cursor opened := by
    cases call with
    | readAll user =>
      obtain rfl := List.mem_singleton.1 opened
      rintro mark marked
      obtain rfl := Option.some.inj marked
      exact ⟨user, rfl⟩
    | create user data fresh => cases opened
    | read user id => cases opened
    | update user id data clock => cases opened
    | delete user id => cases opened
  asks question cursor one two alike named := by
    cases question with
    | next =>
      obtain ⟨apart, counted⟩ := alike
      let related : σ × Log → σ → Prop := fun w s =>
        Apart storeSetup cacheSetup sound view w (ofTwo s two.2.1)
      have fetches (mark : Mark) (w : σ × Log) (s : σ) (fit : storeSetup.Names mark.key)
          (apart : related w s) := Apart.fetch acts disjoint fit apart
      obtain ⟨more, moved, still, next⟩ := Cursor.next_related fetches named apart
      exact ⟨more, moved, still, next, counted⟩
    | get =>
      refine ⟨rfl, rfl, ?_, alike⟩
      have kept : (Cursor.get decode cursor).2.mark = cursor.mark := by
        unfold Cursor.get
        split <;> rfl
      intro mark marked
      exact named mark (kept ▸ marked)
    | close => exact ⟨rfl, rfl, named, alike⟩

variable (serve bound storeSetup cacheSetup view)

/-- What it is not to be disturbed by sharing a server, over some requests: no key is named by both
store and cache, and all that comes of the requests and all that is held in the end is as with a
server for each. -/
structure Undisturbed (s forStore forCache : σ) (counts : LookupCounts) (requests : List Request) :
    Prop where
  keys : ∀ sent ∈ ((sharedStore serve bound storeSetup cacheSetup).deskAfter requests
      ⟨((s, []), counts), []⟩).medium.1.2,
    ∀ sent' ∈ ((sharedStore serve bound storeSetup cacheSetup).deskAfter requests
      ⟨((s, []), counts), []⟩).medium.1.2,
      sent.1 = .cache → sent'.1 = .store → sent.2.key ≠ sent'.2.key
  replies : replies (sharedStore serve bound storeSetup cacheSetup).attended requests
      ⟨((s, []), counts), []⟩ =
    replies (separateStore serve bound storeSetup cacheSetup).attended requests
      ⟨(forStore, forCache, counts), []⟩
  hashes : ∀ user,
    view ((sharedStore serve bound storeSetup cacheSetup).deskAfter requests
      ⟨((s, []), counts), []⟩).medium.1.1 (storeSetup.userKey user) =
    view ((separateStore serve bound storeSetup cacheSetup).deskAfter requests
      ⟨(forStore, forCache, counts), []⟩).medium.1 (storeSetup.userKey user)
  entries : ∀ user id,
    view ((sharedStore serve bound storeSetup cacheSetup).deskAfter requests
      ⟨((s, []), counts), []⟩).medium.1.1 (cacheSetup.entryKey user id) =
    view ((separateStore serve bound storeSetup cacheSetup).deskAfter requests
      ⟨(forStore, forCache, counts), []⟩).medium.2.1 (cacheSetup.entryKey user id)

variable {serve bound storeSetup cacheSetup view}

/-- As long as the two name different keys, sharing a server disturbs nothing. -/
theorem undisturbed (acts : ActsByKey serve bound sound view act)
    (disjoint : ∀ key, storeSetup.Names key → ¬ cacheSetup.Names key) {s forStore forCache : σ}
    (good : sound s) (goodStore : sound forStore) (goodCache : sound forCache)
    (hashes : ∀ key, storeSetup.Names key → view s key = view forStore key)
    (entries : ∀ key, cacheSetup.Names key → view s key = view forCache key)
    (counts : LookupCounts) (requests : List Request) :
    Undisturbed serve bound storeSetup cacheSetup view s forStore forCache counts requests := by
  have start : Apart storeSetup cacheSetup sound view (s, []) (ofTwo forStore forCache) := by
    refine ⟨⟨good, fun sender => ?_⟩, fun sender key named => ?_, nofun⟩
    · cases sender
      · exact goodStore
      · exact goodCache
    · cases sender
      · exact hashes key named
      · exact entries key named
  have desks : Desk.Alike (Indistinct storeSetup cacheSetup sound view) (Scan.Named storeSetup)
      ⟨((s, []), counts), []⟩ ⟨(forStore, forCache, counts), []⟩ :=
    ⟨⟨start, rfl⟩, rfl, nofun⟩
  obtain ⟨replied, final⟩ := (sharedStore_doesAs acts disjoint).deskAfter requests desks
  obtain ⟨apart, _⟩ := final.media
  refine ⟨?_, replied, fun user => ?_, fun user id => ?_⟩
  · rintro ⟨_, command⟩ member ⟨_, command'⟩ member' rfl rfl same
    have cached : cacheSetup.Names command.key := apart.noted _ member
    have stored : storeSetup.Names command'.key := apart.noted _ member'
    exact disjoint _ stored (same ▸ cached)
  · exact apart.views .store _ ⟨user, rfl⟩
  · exact apart.views .cache _ ⟨user, id, rfl⟩

end Sharing

/-! ## The plain server -/

namespace Server

/-- What the plain server holds under a key: the fields of a hash, and a string. -/
def view (server : Server) (key : String) : Option Fields × Option Bytes :=
  (server.hashes.get? key, server.strings.get? key)

/-- A plain server that holds something under one key only. -/
def only (key : String) (content : Option Fields × Option Bytes) : Server where
  hashes := content.1.toList.map fun fields => (key, fields)
  strings := content.2.toList.map fun value => (key, value)

/-- What a command does to what is held under its key. -/
def actOn (command : Command) (content : Option Fields × Option Bytes) :
    Reply × (Option Fields × Option Bytes) :=
  let (reply, after) := (only command.key content).execute command
  (reply, after.view command.key)

theorem view_only (key : String) (content : Option Fields × Option Bytes) :
    (only key content).view key = content := by
  obtain ⟨fields | _, value | _⟩ := content <;> simp [only, view, Bindings.get?]

/-- A command does the same to servers that hold the same under its key. -/
theorem execute_alike {server server' : Server} {command : Command}
    (same : server.view command.key = server'.view command.key) :
    (server.execute command).1 = (server'.execute command).1 ∧
      (server.execute command).2.view command.key =
        (server'.execute command).2.view command.key := by
  have hashes : server.hashes.get? command.key = server'.hashes.get? command.key :=
    congrArg Prod.fst same
  have strings : server.strings.get? command.key = server'.strings.get? command.key :=
    congrArg Prod.snd same
  have fields : server.fields command.key = server'.fields command.key := by
    rw [Server.fields, Server.fields, hashes]
  cases command <;> simp only [Command.key] at same hashes strings fields ⊢
  case hset key field value =>
    simp only [execute, fields, view, setFields, Bindings.get?_put, if_true, strings, and_self]
  case hget key field =>
    simp only [execute, fields]
    split <;> exact ⟨rfl, same⟩
  case hdel key field =>
    simp only [execute, fields]
    split
    · simp only [view, setFields, Bindings.get?_put, if_true, strings, and_self]
    · exact ⟨rfl, same⟩
  case hscan key cursor count =>
    simp only [execute, fields]
    exact ⟨trivial, same⟩
  case set key value =>
    simp only [execute, view, setString, Bindings.get?_put, if_true, hashes, and_self]
  case setEx key seconds value =>
    simp only [execute, view, setString, Bindings.get?_put, if_true, hashes, and_self]
  case get key =>
    simp only [execute, strings]
    split <;> exact ⟨rfl, same⟩
  case del key =>
    simp only [execute, view, Bindings.get?_erase, if_true, hashes, strings, and_self]

/-- What is held under other keys stays. -/
theorem view_execute {server : Server} {command : Command} {key : String}
    (other : key ≠ command.key) : (server.execute command).2.view key = server.view key := by
  have other := Ne.symm other
  cases command <;> simp only [Command.key] at other
  case hset key field value =>
    simp only [execute, view, setFields, Bindings.get?_put, if_neg other]
  case hget key field =>
    simp only [execute]
    split <;> rfl
  case hdel key field =>
    simp only [execute]
    split
    · simp only [view, setFields, Bindings.get?_put, if_neg other]
    · rfl
  case hscan key cursor count => rfl
  case set key value => simp only [execute, view, setString, Bindings.get?_put, if_neg other]
  case setEx key seconds value =>
    simp only [execute, view, setString, Bindings.get?_put, if_neg other]
  case get key =>
    simp only [execute]
    split <;> rfl
  case del key => simp only [execute, view, Bindings.get?_erase, if_neg other]

/-- No command queues a reply. -/
theorem queued_execute (server : Server) (command : Command) :
    (server.execute command).2.queued = server.queued := by
  cases command <;> simp only [execute] <;> (try split) <;> rfl

/-- **The plain server, with no replies queued, acts by key.** -/
theorem actsByKey :
    ActsByKey Server.serve Server.scanBound (fun server => server.queued = []) view actOn where
  keeps command s calm := by
    rw [serve_of_calm calm, queued_execute]
    exact calm
  reply command s calm := by
    rw [serve_of_calm calm]
    exact (execute_alike (view_only _ _).symm).1
  here command s calm := by
    rw [serve_of_calm calm]
    exact (execute_alike (view_only _ _).symm).2
  elsewhere command s key calm other := by
    rw [serve_of_calm calm, view_execute other]
    rfl
  bounded s s' key calm calm' same := by
    have hashes : s.hashes.get? key = s'.hashes.get? key := congrArg Prod.fst same
    rw [scanBound, scanBound, fields, fields, calm, calm', hashes]

end Server

/-! ## The stack that is connected -/

section Wiring

open PostStore.Wiring

/-- Connecting to a store in a key-value server gives one whose keys go on with one word. -/
theorem connectStore_ends {settings : StoreSettings} (onServer : settings.kind = .redis)
    (policy : RetryPolicy) :
    (connectStore settings policy).Ends fun result => ∀ choice, result = .ok choice →
      choice = .server { keyPrefix := settings.redis.keyPrefix ++ "posts:" } := by
  unfold connectStore
  simp only [onServer]
  refine (Dialogue.ends_bind _ _).2 (Dialogue.Ends.of_forall (fun reached => ?_) _)
  cases reached with
  | ok _ => exact fun choice given => (Except.ok.inj given).symm
  | error message => exact nofun

/-- Connecting to a cache in a key-value server gives one whose keys go on with another. -/
theorem connectCache_ends {settings : CacheSettings} (onServer : settings.kind = .redis)
    (policy : RetryPolicy) :
    (connectCache settings policy).Ends fun result => ∀ choice, result = .ok choice →
      choice = .server (cacheSetup settings) := by
  unfold connectCache
  simp only [onServer]
  refine (Dialogue.ends_bind _ _).2 (Dialogue.Ends.of_forall (fun reached => ?_) _)
  cases reached with
  | ok _ => exact fun choice given => (Except.ok.inj given).symm
  | error message => exact nofun

theorem keyPrefix_cacheSetup (settings : CacheSettings) :
    (cacheSetup settings).keyPrefix = settings.redis.keyPrefix ++ "cache:" := by
  unfold cacheSetup
  cases settings.lifetimeSeconds <;> rfl

/-- Settings from the environment say the same of the server for the store and for the cache. -/
theorem redis_settings {env : Environment} {settings : Settings}
    (loaded : env.settings = .ok settings) : settings.cache.redis = settings.store.redis := by
  have described := (settings_eq_ok.1 loaded).1
  simp only [Settings.variables, StoreSettings.variables, CacheSettings.variables, describes_cons,
    describes_append, describes_within, describes_redis] at described
  obtain ⟨⟨-, -, -, store⟩, -, cache⟩ := described
  rw [store, cache]

/-- **Store and cache that are connected with one prefix do not disturb each other in one server.**
Settings from the environment have one prefix.  Whatever site the two are connected from, they go to
hashes and entries that never share a key; and over every server that acts by key, from any state in
which each would find its own as in a server of its own, no requests can tell. -/
theorem shared_server_undisturbed :
    (∀ (env : Environment) (settings : Settings), env.settings = .ok settings →
      settings.cache.redis.keyPrefix = settings.store.redis.keyPrefix) ∧
    ∀ (settings : Settings) (policy policy' : RetryPolicy) {ω : Type}
      (site : (question : Wiring.Ask) → ω → question.Reply × ω) (w w' : ω)
      (storeChoice : StoreChoice) (cacheChoice : CacheChoice),
      settings.store.kind = .redis → settings.cache.kind = .redis →
      settings.cache.redis.keyPrefix = settings.store.redis.keyPrefix →
      ((connectStore settings.store policy).run site w).1 = .ok storeChoice →
      ((connectCache settings.cache policy').run site w').1 = .ok cacheChoice →
      ∃ storeSetup cacheSetup, storeChoice = .server storeSetup ∧
        cacheChoice = .server cacheSetup ∧
        (∀ user u id, storeSetup.userKey user ≠ cacheSetup.entryKey u id) ∧
        ∀ {σ V : Type} (serve : (command : Command) → σ → ReplyTo command × σ)
          (bound : σ → String → Nat) (sound : σ → Prop) (view : σ → String → V)
          (act : Command → V → Reply × V), ActsByKey serve bound sound view act →
          ∀ s forStore forCache : σ, sound s → sound forStore → sound forCache →
            (∀ user, view s (storeSetup.userKey user) = view forStore (storeSetup.userKey user)) →
            (∀ user id, view s (cacheSetup.entryKey user id) =
              view forCache (cacheSetup.entryKey user id)) →
            ∀ (counts : LookupCounts) (requests : List Request),
              Undisturbed serve bound storeSetup cacheSetup view s forStore forCache counts
                requests := by
  refine ⟨fun env settings loaded => congrArg _ (redis_settings loaded), ?_⟩
  intro settings policy policy' ω site w w' storeChoice cacheChoice onServer onServer' onePrefix
    connected connected'
  obtain rfl := (connectStore_ends onServer policy).run site w storeChoice connected
  obtain rfl := (connectCache_ends onServer' policy').run site w' cacheChoice connected'
  have disjoint : ∀ key, StoreSetup.Names
      { keyPrefix := settings.store.redis.keyPrefix ++ "posts:" } key →
      ¬ (cacheSetup settings.cache).Names key :=
    fun key => names_apart rfl (onePrefix ▸ keyPrefix_cacheSetup settings.cache)
  refine ⟨_, _, rfl, rfl, fun user u id same => ?_, ?_⟩
  · exact disjoint _ ⟨user, rfl⟩ ⟨u, id, same⟩
  · intro σ V serve bound sound view act acts s forStore forCache good goodStore goodCache hashes
      entries counts requests
    refine undisturbed acts disjoint good goodStore goodCache ?_ ?_ counts requests
    · rintro _ ⟨user, rfl⟩
      exact hashes user
    · rintro _ ⟨user, id, rfl⟩
      exact entries user id

/-- A site with a key-value server at a socket. -/
def socketSite : Media := { files := .directory [(Text.utf8 "redis.sock", .socket)] }

/-- Settings with store and cache in that server. -/
def socketSettings : Settings where
  store := { kind := .redis, redis := { url := "unix:///redis.sock" } }
  cache := { kind := .redis, redis := { url := "unix:///redis.sock" } }

/-- A user with the name of a cache key has a post that is read, changed and listed. -/
def borderline : List Request :=
  [.call (.create "cache:u#i" "tea" ⟨"i", .epoch⟩), .call (.read "cache:u#i" "i"),
    .call (.update "cache:u#i" "i" "mate" .epoch), .call (.read "cache:u#i" "i"),
    .call (.readAll "cache:u#i"), .ask 0 .next, .ask 0 .get, .call (.delete "cache:u#i" "i"),
    .ask 0 .next, .ask 0 .close]

theorem shared_server_undisturbed_borderline :
    Undisturbed Server.serve Server.scanBound { keyPrefix := "crudstore:posts:" }
      { keyPrefix := "crudstore:cache:" } Server.view {} {} {} {} borderline := by
  obtain ⟨storeSetup, cacheSetup, stores, caches, _, undisturbed⟩ :=
    shared_server_undisturbed.2 socketSettings {} {} Wiring.serve socketSite socketSite
      (.server { keyPrefix := "crudstore:posts:" }) (.server { keyPrefix := "crudstore:cache:" })
      rfl rfl rfl rfl rfl
  cases stores
  cases caches
  exact undisturbed Server.serve Server.scanBound _ Server.view Server.actOn Server.actsByKey
    {} {} {} rfl rfl rfl (fun _ => rfl) (fun _ _ => rfl) {} borderline

end Wiring

end Redis

end PostStore
