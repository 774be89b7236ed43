import PostStore.Proofs.Conformance.Users
import PostStore.Proofs.FailedCalls
import PostStore.Proofs.Reliable
import PostStore.Proofs.Turns
/-!
# Posts do not share cache keys

A cache key is a user and an identifier with a separator between them, and users may have separators
in their names; so keys can be shared by those who ask.  But the identifiers that are made up have
no separator, and then the last separator of a key tells the two apart.  As long as posts come into
the store by creation only, no two of them share a key, and whoever asks for another post under the
key of an entry asks for one that is not there: the store says so, and the entry stays.
-/

namespace PostStore

open Coordinator

/-! ## Keys -/

/-- Whether there is no separator in an identifier. -/
def Post.SeparatorFree (id : String) : Prop := keySeparator ∉ id.toList

/-- The last mark in a text tells what is before it from what is behind. -/
theorem append_cons_inj_of_notMem_right {α : Type} {front front' back back' : List α}
    {mark : α} (free : mark ∉ back) (free' : mark ∉ back') :
    front ++ mark :: back = front' ++ mark :: back' ↔ front = front' ∧ back = back' := by
  refine ⟨fun same => ?_, fun ⟨first, second⟩ => by rw [first, second]⟩
  rcases List.append_eq_append_iff.1 same with ⟨_ | ⟨first, more⟩, rfl, rest⟩ |
      ⟨_ | ⟨first, more⟩, rfl, rest⟩
  · exact ⟨(List.append_nil front).symm, (List.cons.inj rest).2⟩
  · rw [(List.cons.inj rest).2] at free
    exact absurd (List.mem_append_right more List.mem_cons_self) free
  · exact ⟨List.append_nil front', (List.cons.inj rest).2.symm⟩
  · rw [(List.cons.inj rest).2] at free'
    exact absurd (List.mem_append_right more List.mem_cons_self) free'

namespace Post

theorem toList_cacheKey (user id : String) :
    (cacheKey user id).toList = user.toList ++ keySeparator :: id.toList := by
  rw [cacheKey, String.toList_append, String.toList_append, List.append_assoc]
  rfl

/-- **Keys of identifiers without separators are different**, whatever the users are. -/
theorem cacheKey_inj {user id user' id' : String} (free : SeparatorFree id)
    (free' : SeparatorFree id') :
    cacheKey user id = cacheKey user' id' ↔ user = user' ∧ id = id' := by
  rw [← String.toList_inj, toList_cacheKey, toList_cacheKey,
    append_cons_inj_of_notMem_right free free', String.toList_inj, String.toList_inj]

end Post

open Post

/-- A hexadecimal number has no separator. -/
theorem IsHexId.separatorFree {id : String} (hex : IsHexId id) : SeparatorFree id := fun there =>
  absurd (hex.digits _ there) (by decide)

/-! ## What is held -/

/-- Whether a call makes no post whose identifier has a separator. -/
def Call.MakesSeparate : Call → Prop
  | .create _ _ fresh => SeparatorFree fresh.id
  | .read .. | .readAll _ | .update .. | .delete .. => True

/-- A regular post under an identifier without separators. -/
structure Post.Plain (post : Post) : Prop where
  free : SeparatorFree post.id
  regular : post.Regular

namespace Catalogue

/-- What is held is held under its own user and identifier, and is plain. -/
structure Separate (held : Catalogue) : Prop where
  own : held.Own
  plain : ∀ user id post, held user id = some post → post.Plain

variable {held : Catalogue}

theorem separate_empty : Separate fun _ _ => none := ⟨own_empty, fun _ _ _ found => nomatch found⟩

theorem Separate.free (separate : held.Separate) {user id : String} {post : Post}
    (found : held user id = some post) : SeparatorFree id :=
  (separate.own user id post found).2 ▸ (separate.plain user id post found).free

theorem Separate.file (separate : held.Separate) {post : Post} (plain : post.Plain) :
    (held.file post).Separate where
  own := separate.own.file post
  plain user id other found := by
    by_cases here : user = post.user ∧ id = post.id
    · obtain ⟨rfl, rfl⟩ := here
      rw [file_self] at found
      exact Option.some.inj found ▸ plain
    · rw [file_ne here] at found
      exact separate.plain user id other found

theorem Separate.drop (separate : held.Separate) (user id : String) :
    (held.drop user id).Separate where
  own := separate.own.drop user id
  plain u i post found := by
    by_cases here : u = user ∧ i = id
    · obtain ⟨rfl, rfl⟩ := here
      rw [drop_self] at found
      cases found
    · rw [drop_ne here] at found
      exact separate.plain u i post found

/-- Only a creation brings in an identifier. -/
theorem Separate.after (separate : held.Separate) {call : Call} (makes : call.MakesSeparate) :
    (held.after call).Separate := by
  cases call with
  | create user data fresh => exact separate.file ⟨makes, Post.regular_make user data fresh⟩
  | read user id => exact separate
  | readAll user => exact separate
  | update user id data clock =>
    show (held.afterChange (held.change user id data clock)).Separate
    cases given : held.change user id data clock with
    | error e => exact separate
    | ok changed =>
      obtain ⟨post, found, later⟩ := change_eq_ok given
      refine separate.file ⟨?_, ?_⟩
      · rw [(separate.own.change given).2]
        exact separate.free found
      · exact (separate.plain user id post found).regular.withData? clock.regular later
  | delete user id => exact separate.drop user id

/-- No two posts that are held share a key. -/
theorem Separate.eq_of_key_eq (separate : held.Separate) {user id user' id' : String}
    {post post' : Post} (found : held user id = some post) (found' : held user' id' = some post')
    (same : post.key = post'.key) : post = post' := by
  obtain ⟨rfl, rfl⟩ := separate.own user id post found
  obtain ⟨rfl, rfl⟩ := separate.own user' id' post' found'
  obtain ⟨hu, hi⟩ := (cacheKey_inj (separate.free found) (separate.free found')).1 same
  rw [hu, hi, found'] at found
  exact (Option.some.inj found).symm

/-- What has a separator in its identifier is looked for in vain. -/
theorem Separate.lookup (separate : held.Separate) (user : String) {id : String}
    (separated : ¬ SeparatorFree id) : held.lookup user id = .error (.notFound user id) := by
  unfold Catalogue.lookup
  cases found : held user id with
  | none => rfl
  | some post => exact absurd (separate.free found) separated

end Catalogue

/-! ## Runs -/

section Runs

variable {σ τ κ : Type} {store : Store σ κ} {cache : Cache τ} {scope : Call → σ → Prop}
  {shows : Catalogue → σ → Prop} {peek : τ → Catalogue} {world : World σ τ κ}

/-- Whether a post was given to its user, and is plain. -/
def GivenTo (user : String) (post : Post) : Prop := post.user = user ∧ post.Plain

/-- Whether a post is the one asked for, and is plain. -/
def IsAskedFor (user id : String) (post : Post) : Prop := owns user id post = true ∧ post.Plain

/-- The store holds plain posts, the cache has each plain post under its own key, and the sessions
bring in nothing else. -/
structure Coordinator.World.Separate (shows : Catalogue → σ → Prop) (peek : τ → Catalogue)
    (world : World σ τ κ) : Prop where
  stock : ∃ held, shows held world.medium.1 ∧ held.Separate
  entries : ∀ user id post, peek world.medium.2 user id = some post →
    Post.cacheKey user id = post.key ∧ post.Plain
  sessions : ∀ session ∈ world.sessions,
    Stage GivenTo IsAskedFor session ∧ session.call.MakesSeparate

namespace Coordinator.World.Separate

/-- What the store and the cache reply is what the sessions may go on with. -/
theorem warranted (reliable : store.Reliable scope shows) (keyed : cache.Keyed peek)
    (separate : world.Separate shows peek) {session : Session κ} (member : session ∈ world.sessions)
    {question : Ask} (asks : session.question? = some question)
    (inScope : ∀ call, question = .store call → scope call world.medium.1) :
    Warranted GivenTo IsAskedFor question
      (serve (store.within .first) (cache.within .second) question world.medium).1 := by
  obtain ⟨held, shown, filed⟩ := separate.stock
  obtain ⟨stage, makes⟩ := separate.sessions session member
  unfold Warranted
  split
  · rename_i user data fresh post answer
    have made := reliable.make_of_create shown (inScope _ rfl) answer
    rw [stage.of_store asks] at makes
    rw [made]
    exact ⟨rfl, makes, Post.regular_make user data fresh⟩
  · rename_i user id post answer
    have lookup := reliable.finds shown (inScope _ rfl)
    have found := Catalogue.lookup_eq_ok.1 (lookup.symm.trans answer)
    exact ⟨owns_iff.2 (filed.own user id post found), filed.plain user id post found⟩
  · rename_i user id post answer
    exact fun own => ⟨own, (separate.entries user id post (keyed.get user id _ post answer)).2⟩
  · trivial

/-- After a call of the store it still holds plain posts. -/
theorem stock_serve (reliable : store.Reliable scope shows) {held : Catalogue} {s : σ}
    (shown : shows held s) (filed : held.Separate) {call : Call} (inScope : scope call s)
    (makes : call.MakesSeparate) :
    ∃ next, shows next (store.serve call s).2 ∧ next.Separate := by
  obtain ⟨next, rfl | rfl, after⟩ := reliable.serve shown inScope
  · exact ⟨next, after, filed⟩
  · exact ⟨_, after, filed.after makes⟩

/-- After a call of the cache it still has each post under its own key. -/
theorem entries_serve (keyed : cache.Keyed peek) (separate : world.Separate shows peek)
    {session : Session κ} (member : session ∈ world.sessions) {call : CacheCall}
    (asks : session.question? = some (.cache call)) {user id : String} {post : Post}
    (found : peek (cache.serve call world.medium.2).2 user id = some post) :
    Post.cacheKey user id = post.key ∧ post.Plain := by
  cases call with
  | get u i => exact separate.entries user id post (keyed.get_keeps u i _ user id post found)
  | remove u i => exact separate.entries user id post (keyed.remove u i _ user id post found)
  | add u i added =>
    -- what a session adds is plain, and its own
    obtain ⟨place', plain⟩ : Post.cacheKey u i = added.key ∧ added.Plain := by
      rcases (separate.sessions session member).1.of_add asks with
        ⟨⟨rfl, plain⟩, rfl⟩ | ⟨own, plain⟩
      · exact ⟨rfl, plain⟩
      · obtain ⟨rfl, rfl⟩ := owns_iff.1 own
        exact ⟨rfl, plain⟩
    rcases keyed.placed u i added _ user id post plain.regular found with old | ⟨rfl, place⟩
    · exact separate.entries user id post old
    · exact ⟨place.trans place', plain⟩

/-- **One more turn leaves keys apart**, unless it begins a creation with a separator. -/
theorem turn (reliable : store.Reliable scope shows) (keyed : cache.Keyed peek)
    (separate : world.Separate shows peek) {turn : Turn}
    (makes : ∀ call, turn = .begin call → call.MakesSeparate)
    (inScope : ∀ call, world.asks? turn = some (.store call) → scope call world.medium.1) :
    (world.turn store cache turn).Separate shows peek := by
  have sessions : ∀ session ∈ (world.turn store cache turn).sessions,
      Stage GivenTo IsAskedFor session ∧ session.call.MakesSeparate := by
    refine forall_sessions_turn separate.sessions ?_ fun session member asked => ?_
    · exact fun call begun => ⟨.begun call, makes call begun⟩
    obtain ⟨stage, was⟩ := separate.sessions session member
    refine ⟨stage.step world.medium fun question asks => ?_, (session.call_step _).symm ▸ was⟩
    refine separate.warranted reliable keyed member asks fun call same => inScope call ?_
    rw [asked, asks, same]
  cases asks : world.asks? turn with
  | none =>
    have same : (world.turn store cache turn).medium = world.medium := turn_medium_of_none asks
    exact ⟨same ▸ separate.stock, same ▸ separate.entries, sessions⟩
  | some question =>
    have changed : (world.turn store cache turn).medium =
        (serve (store.within .first) (cache.within .second) question world.medium).2 :=
      turn_medium_of_some asks
    obtain ⟨session, member, asks'⟩ := exists_of_asks? asks
    obtain ⟨held, shown, filed⟩ := separate.stock
    cases question with
    | store call =>
      have makes := (separate.sessions session member).1.of_store asks' ▸
        (separate.sessions session member).2
      refine ⟨?_, ?_, sessions⟩ <;> rw [changed]
      · exact stock_serve reliable shown filed (inScope call asks) makes
      · exact separate.entries
    | cache call =>
      refine ⟨?_, ?_, sessions⟩ <;> rw [changed]
      · exact ⟨held, shown, filed⟩
      · exact fun user id post => separate.entries_serve keyed member asks'

/-- However the turns fall, keys stay apart. -/
theorem after (reliable : store.Reliable scope shows) (keyed : cache.Keyed peek)
    (separate : world.Separate shows peek) {history : List Turn}
    (makes : ∀ call, .begin call ∈ history → call.MakesSeparate)
    (inScope : world.InScope store cache scope history) :
    (world.after store cache history).Separate shows peek := by
  induction history with
  | nil => exact separate
  | cons turn earlier ih =>
    refine (ih (fun call begun => makes call (List.mem_cons_of_mem _ begun)) inScope.1).turn
      reliable keyed (fun call begun => makes call ?_) inScope.2
    rw [begun]
    exact List.mem_cons_self

/-- An empty store and an empty cache have nothing that could share a key. -/
theorem empty {s : σ} {t : τ} (stock : shows (fun _ _ => none) s)
    (empty : ∀ user id, peek t user id = none) :
    (⟨(s, t), []⟩ : World σ τ κ).Separate shows peek where
  stock := ⟨_, stock, Catalogue.separate_empty⟩
  entries user id _ found := nomatch (empty user id).symm.trans found
  sessions _ member := nomatch member

/-- Who finds the post of someone else asks for an identifier with a separator. -/
theorem not_separatorFree (keyed : cache.Keyed peek) (separate : world.Separate shows peek)
    {user id : String} {entry : Post}
    (found : (cache.serve (.get user id) world.medium.2).1 = some entry)
    (other : ¬ owns user id entry = true) : ¬ SeparatorFree id := by
  intro free
  obtain ⟨place, plain⟩ := separate.entries user id entry (keyed.get user id _ entry found)
  obtain ⟨rfl, rfl⟩ := (cacheKey_inj free plain.free).1 place
  exact other (owns_iff.2 ⟨rfl, rfl⟩)

/-- And the store does not have it. -/
theorem read_eq (reliable : store.Reliable scope shows) (separate : world.Separate shows peek)
    {user id : String} (separated : ¬ SeparatorFree id)
    (inScope : scope (.read user id) world.medium.1) :
    (store.serve (.read user id) world.medium.1).1 = .error (.notFound user id) := by
  obtain ⟨held, shown, filed⟩ := separate.stock
  rw [reliable.finds shown inScope, filed.lookup user separated]

end Coordinator.World.Separate

/-! ## Lookups under the key of another post -/

section Lookups

variable {user id : String} {entry : Post} {index : Nat}

/-- Made on its own, a lookup that finds another post ends without a post and leaves the other. -/
theorem serve_read_other (reliable : store.Reliable scope shows) (keyed : cache.Keyed peek)
    (separate : world.Separate shows peek) (inScope : scope (.read user id) world.medium.1)
    (found : (cache.serve (.get user id) world.medium.2).1 = some entry)
    (other : ¬ owns user id entry = true) :
    ((store.cachedBy cache).serve (.read user id) world.medium).1 = .error (.notFound user id) ∧
      peek ((store.cachedBy cache).serve (.read user id) world.medium).2.2 user id =
        some entry := by
  have missing := separate.read_eq reliable (separate.not_separatorFree keyed found other) inScope
  have stays := keyed.stays user id _ entry found
  obtain ⟨⟨s, t⟩, sessions⟩ := world
  have miss : ∀ post, (cache.serve (.get user id) t).1 = some post →
      ¬ owns user id post = true := by
    intro post there
    obtain rfl := Option.some.inj (found.symm.trans there)
    exact other
  rw [serve_read_cachedBy_miss store cache s t miss, run_readThrough]
  rcases served : store.serve (.read user id) s with ⟨answer, s'⟩
  obtain rfl : answer = .error (.notFound user id) := (congrArg Prod.fst served).symm.trans missing
  exact ⟨rfl, stays⟩

namespace Coordinator

/-- A lookup that finds another post goes on to the store. -/
theorem Session.step_other {session : Session κ} {medium : σ × τ}
    (begun : session = ⟨.read user id, perform (.read user id)⟩)
    (found : (cache.serve (.get user id) medium.2).1 = some entry)
    (other : ¬ owns user id entry = true) :
    (session.step store cache medium).1 = ⟨.read user id, readThrough user id⟩ := by
  obtain ⟨s, t⟩ := medium
  rw [begun, perform_read]
  simp only [Session.step, serve_cache_pair]
  rw [found]
  simp only [if_neg other]

/-- A lookup in the store that fails ends with the failure. -/
theorem Session.step_readThrough {medium : σ × τ} {e : StoreError}
    (failed : (store.serve (.read user id) medium.1).1 = .error e) :
    (Session.step store cache ⟨.read user id, readThrough user id⟩ medium).1 =
      ⟨.read user id, .done (.error e)⟩ := by
  obtain ⟨s, t⟩ := medium
  rw [readThrough_eq]
  simp only [Session.step, serve_store_pair]
  rw [failed]

/-- A lookup that has gone on to the store and has still to be answered, or has been answered. -/
def beyondCache (user id : String) (answered : Prop) [Decidable answered] : Session κ :=
  ⟨.read user id,
    if answered then .done (.error (.notFound user id)) else readThrough user id⟩

/-- From there the lookup asks nothing of the cache. -/
theorem World.cache_step_beyondCache {answered : Prop} [Decidable answered]
    (here : world.sessions[index]? = some (beyondCache user id answered)) :
    (world.turn store cache (.step index)).medium.2 = world.medium.2 := by
  have asks := World.asks?_step here
  unfold beyondCache at asks
  split at asks
  · rw [World.turn_medium_of_none asks]
  · rw [readThrough_eq] at asks
    rw [World.turn_medium_of_some asks]
    rfl

/-- With the next of its turns it ends without a post. -/
theorem World.Separate.step_beyondCache (reliable : store.Reliable scope shows)
    (separate : world.Separate shows peek) (separated : ¬ SeparatorFree id) {answered : Prop}
    [Decidable answered] (here : world.sessions[index]? = some (beyondCache user id answered))
    (inScope : ∀ call, world.asks? (.step index) = some (.store call) →
      scope call world.medium.1) :
    (world.turn store cache (.step index)).sessions[index]? = some (beyondCache user id True) := by
  have asks := World.asks?_step here
  rw [World.getElem?_sessions_step here]
  unfold beyondCache at asks ⊢
  by_cases ended : answered
  · simp only [if_pos ended]
    rfl
  · simp only [if_neg ended] at asks ⊢
    rw [readThrough_eq] at asks
    exact congrArg some
      (Session.step_readThrough (separate.read_eq reliable separated (inScope _ asks)))

/-- However the turns fall after a lookup has found another post, it is beyond the cache, and with
its next turn it ends without a post. -/
theorem World.Separate.beyondCache_after (reliable : store.Reliable scope shows)
    (keyed : cache.Keyed peek) (separate : world.Separate shows peek) {earlier : List Turn}
    (asks : (world.after store cache earlier).asks? (.step index) = some (.cache (.get user id)))
    (found : (cache.serve (.get user id) (world.after store cache earlier).medium.2).1 = some entry)
    (other : ¬ owns user id entry = true) {later : List Turn}
    (makes : ∀ call, .begin call ∈ later ++ .step index :: earlier → call.MakesSeparate)
    (inScope : world.InScope store cache scope (later ++ .step index :: earlier)) :
    (world.after store cache (later ++ .step index :: earlier)).sessions[index]? =
      some (beyondCache user id (.step index ∈ later)) := by
  induction later with
  | nil =>
    have before : (world.after store cache earlier).Separate shows peek :=
      separate.after reliable keyed (fun call begun => makes call (List.mem_cons_of_mem _ begun))
        inScope.1
    obtain ⟨session, here, asks⟩ := Option.bind_eq_some_iff.1 asks
    have begun := (before.sessions session (List.mem_of_getElem? here)).1.of_get asks
    rw [List.nil_append, World.after, World.getElem?_sessions_step here,
      Session.step_other begun found other]
    rfl
  | cons turn later ih =>
    have makes' : ∀ call, .begin call ∈ later ++ .step index :: earlier → call.MakesSeparate :=
      fun call begun => makes call (List.mem_cons_of_mem turn begun)
    have here := ih makes' inScope.1
    have now : (world.after store cache (later ++ .step index :: earlier)).Separate shows peek :=
      separate.after reliable keyed makes' inScope.1
    have before : (world.after store cache earlier).Separate shows peek :=
      separate.after reliable keyed
        (fun call begun => makes' call (List.mem_append_right later (List.mem_cons_of_mem _ begun)))
        (World.InScope.of_append inScope.1).1
    by_cases own : turn = .step index
    · subst own
      simp only [List.mem_cons_self]
      have separated := before.not_separatorFree keyed found other
      exact now.step_beyondCache reliable separated here inScope.2
    · have others : (.step index ∈ turn :: later) ↔ .step index ∈ later := by
        rw [List.mem_cons, or_iff_right (Ne.symm own)]
      simp only [others]
      exact World.getElem?_sessions_turn here own

end Coordinator

end Lookups

/-- **Posts do not share cache keys, and who shares a key does no harm.**  Keys of identifiers
without separators are the same for the same user and identifier only, whatever is in the names of
users; identifiers that are hexadecimal numbers have no separators.  However calls are taken in
turns from an empty store and an empty cache, if all posts that are made get identifiers without
separators: what the store holds is held under its own user and identifier, and different posts have
different keys; and a lookup that finds another post under its key, on its own or with other turns
between its own, leaves that post where it is, asks nothing more of the cache, and ends with the
answer that the store has no such post. -/
theorem posts_share_no_key (reliable : store.Reliable scope shows) (keyed : cache.Keyed peek)
    {s : σ} {t : τ} (stock : shows (fun _ _ => none) s) (empty : ∀ user id, peek t user id = none) :
    let world : World σ τ κ := ⟨(s, t), []⟩
    (∀ user id user' id', SeparatorFree id → SeparatorFree id' →
      (Post.cacheKey user id = Post.cacheKey user' id' ↔ user = user' ∧ id = id')) ∧
    (∀ id, IsHexId id → SeparatorFree id) ∧
    (∀ history, (∀ call, .begin call ∈ history → call.MakesSeparate) →
      world.InScope store cache scope history →
      let reached := world.after store cache history
      (∃ held, shows held reached.medium.1 ∧ held.Own ∧
        ∀ user id post user' id' post', held user id = some post → held user' id' = some post' →
          post ≠ post' → post.key ≠ post'.key) ∧
      ∀ user id entry, scope (.read user id) reached.medium.1 →
        (cache.serve (.get user id) reached.medium.2).1 = some entry →
        ¬ owns user id entry = true →
        let ended := (store.cachedBy cache).serve (.read user id) reached.medium
        ended.1 = .error (.notFound user id) ∧ peek ended.2.2 user id = some entry) ∧
    ∀ (later : List Turn) (index : Nat) (earlier : List Turn),
      (∀ call, .begin call ∈ later ++ .step index :: earlier → call.MakesSeparate) →
      world.InScope store cache scope (later ++ .step index :: earlier) →
      ∀ user id entry,
        (world.after store cache earlier).asks? (.step index) = some (.cache (.get user id)) →
        (cache.serve (.get user id) (world.after store cache earlier).medium.2).1 = some entry →
        ¬ owns user id entry = true →
        let reached := world.after store cache (later ++ .step index :: earlier)
        peek (world.after store cache (.step index :: earlier)).medium.2 user id = some entry ∧
        reached.sessions[index]? = some (beyondCache user id (.step index ∈ later)) ∧
        (reached.turn store cache (.step index)).medium.2 = reached.medium.2 := by
  intro world
  have start : world.Separate shows peek := World.Separate.empty stock empty
  refine ⟨fun _ _ _ _ => cacheKey_inj, fun _ => IsHexId.separatorFree, ?_, ?_⟩
  · intro history makes inScope reached
    have separate : reached.Separate shows peek := start.after reliable keyed makes inScope
    obtain ⟨held, shown, filed⟩ := separate.stock
    refine ⟨⟨held, shown, filed.own, ?_⟩, ?_⟩
    · exact fun _ _ _ _ _ _ found found' other same => other (filed.eq_of_key_eq found found' same)
    · exact fun user id entry allowed => serve_read_other reliable keyed separate allowed
  · intro later index earlier makes inScope user id entry asks found other reached
    have beyond := start.beyondCache_after reliable keyed asks found other makes inScope
    refine ⟨?_, beyond, World.cache_step_beyondCache beyond⟩
    rw [World.after, World.turn_medium_of_some asks]
    exact keyed.stays user id _ entry found

end Runs

/-- A post is made under a key that someone else asks for: whether the two turns of the lookup come
together or not, it ends without a post, and the post that was made is still in the cache. -/
theorem posts_share_no_key_aliases :
    let yours : Post := Post.make "a#b" "yours" ⟨"c", default⟩
    let earlier : List Turn :=
      [.begin (.read "a" "b#c"), .step 0, .step 0, .begin (.create "a#b" "yours" ⟨"c", default⟩)]
    let start : World Memory Lru Snapshot := ⟨({}, { capacity := 1 }), []⟩
    let world := fun history => start.after Memory.store Lru.cache history
    let ended := (Memory.store.cachedBy Lru.cache).serve (.read "a" "b#c") (world earlier).medium
    (ended.1 = .error (.notFound "a" "b#c") ∧ ended.2.2.peek "a" "b#c" = some yours) ∧
      (world (.step 1 :: earlier)).medium.2.peek "a" "b#c" = some yours ∧
      (world (.step 1 :: .step 1 :: earlier)).sessions[1]? =
        some ⟨.read "a" "b#c", .done (.error (.notFound "a" "b#c"))⟩ := by
  intro yours earlier start world ended
  obtain ⟨-, hexadecimal, reached, inTurns⟩ := posts_share_no_key Memory.reliable Lru.keyed
    Memory.shows_empty (t := { capacity := 1 }) fun _ _ => rfl
  have free : SeparatorFree "c" :=
    hexadecimal "c" ⟨by decide, List.forall_mem_singleton.2 (by decide)⟩
  have makes : ∀ call, .begin call ∈ [.step 1] ++ .step 1 :: earlier → call.MakesSeparate := by
    intro call begun
    have calls : call = .read "a" "b#c" ∨ call = .create "a#b" "yours" ⟨"c", default⟩ := by
      simpa [earlier] using begun
    rcases calls with rfl | rfl
    · trivial
    · exact free
  have makes' : ∀ call, .begin call ∈ earlier → call.MakesSeparate := fun call begun =>
    makes call (List.mem_cons_of_mem _ (List.mem_cons_of_mem _ begun))
  have inScope := World.inScope_true Memory.store Lru.cache start
  have other : ¬ owns "a" "b#c" yours = true := by decide
  obtain ⟨-, alone⟩ := reached earlier makes' (inScope earlier)
  obtain ⟨stays, answered, -⟩ := inTurns [.step 1] 1 earlier makes (inScope _) "a" "b#c" yours rfl
    rfl other
  exact ⟨alone "a" "b#c" yours trivial rfl other, stays, answered⟩

end PostStore
