import PostStore.Proofs.Lmdb.Agreement
import PostStore.Proofs.Paging
/-!
# Listings of the document file while others write

Whatever is filed and dropped between two pages, the next page holds what is then behind the last
key seen.  So a listing of the file is orderly, also when the entry under that key is gone.
-/

namespace PostStore.Lmdb

/-- What a file holds. -/
def Environment.held (env : Environment) : Catalogue := env.entries.held

section Keeping

variable {names : Set String} {env : Environment}

/-- Every call leaves the documents filed right: the entries stay as they are, or are those after
the call. -/
theorem Sound.serve (sound : Sound names env) (distinct : Distinct names) (pageSize : Nat)
    (call : Call) (known : ∀ name ∈ call.names, name ∈ names) :
    Sound names ((store pageSize).serve call env).2 := by
  have settled := sound.settled
  have after : Sound names (env.restock (env.entries.after call)) :=
    ⟨rfl, (sound.stocked.after distinct known).1⟩
  cases call with
  | create user data fresh =>
    show Sound names (transact (insert (Post.make user data fresh)) env).2
    rw [transact_insert settled]
    split
    · exact sound
    · exact after
  | read user id =>
    show Sound names (transact (find user id) env).2
    rw [transact_find settled]
    split <;> exact sound
  | readAll user =>
    show Sound names env.abandon
    rw [abandon_of_settled settled]
    exact sound
  | update user id data clock =>
    obtain ⟨hu, hi⟩ := Call.names_pair known
    rw [sound.serve_update distinct pageSize hu hi]
    split
    · exact sound
    · split
      · exact sound
      · exact after
  | delete user id =>
    show Sound names (transact (remove user id) env).2
    rw [transact_remove]
    exact after

/-- Fetching a page leaves the file as it is. -/
theorem Sound.fetchPage (sound : Sound names env) (mark : Mark) :
    (transact (fetchPage mark) env).2 = env := by
  rw [transact_fetchPage sound.settled sound.stocked.sorted]
  split <;> rfl

/-- An advance leaves the documents filed right. -/
theorem Sound.next (sound : Sound names env) (pageSize : Nat) (cursor : Pages) :
    Sound names ((store pageSize).feed.next cursor env).2.2 := by
  refine Cursor.next_keeps (Sound names) (fun mark env _ env' sound got => ?_) cursor sound
  have still : env' = env := by
    rw [← sound.fetchPage mark, got]
  rw [still]
  exact sound

/-- A file that only the store has written is sound. -/
theorem sound_after (distinct : Distinct names) (pageSize capacity : Nat) (calls : List Call)
    (known : ∀ call ∈ calls, ∀ name ∈ call.names, name ∈ names) :
    Sound names ((store pageSize).after calls { capacity := capacity }) := by
  have empty : Sound names { capacity := capacity } := ⟨rfl, .nil⟩
  exact Store.after_keeps (Sound names)
    (fun call env used sound => sound.serve distinct pageSize call used) calls known empty

end Keeping

/-- **The pages of the file hold what it holds of the user behind the last key seen.** -/
theorem paged {names : Set String} (distinct : Distinct names) {user : String}
    (known : user ∈ names) :
    Paging.Paged (fun mark => transact (fetchPage mark)) decode user (Sound names)
      Environment.held (Mark.Fit user) fun mark id => mark.faces (postKey user id) = true := by
  constructor
  intro mark env page next env' fit sound got
  obtain ⟨settled, stocked⟩ := sound
  rw [transact_fetchPage settled stocked.sorted] at got
  split at got
  · cases got
  obtain ⟨result, rfl⟩ := Prod.mk.inj got
  obtain ⟨rfl, onward⟩ := Prod.mk.inj (Except.ok.inj result)
  have whole := Entries.sublist_ahead stocked.sorted fit
  have part := stocked.sublist ((List.take_sublist mark.pageSize _).trans whole)
  have ahead : ∀ post, post ∈ (env.entries.ahead mark).posts ↔
      env.entries.held user post.id = some post ∧ mark.faces (postKey user post.id) = true :=
    fun _ => stocked.mem_posts_ahead distinct known fit
  -- no identifier is there twice ahead of the mark, in the page and behind it
  have own : ∀ post ∈ (env.entries.ahead mark).posts, post.user = user := fun post member =>
    (Entries.held_own ((ahead post).1 member).1).1
  have once := Paging.nodup_ids postKey own (stocked.sublist whole).nodup_posts
  have split := stocked.posts_ahead fit
  rw [onward] at split
  rw [split] at once ahead own
  rw [List.map_append] at once
  obtain ⟨onceHere, -, apart⟩ := List.nodup_append.1 once
  refine ⟨_, part.map_posts.1, onceHere, ?_, ?_, ?_⟩
  · intro post member
    exact ⟨own post (List.mem_append_left _ member), (ahead post).1 (List.mem_append_left _ member)⟩
  · intro id stored facing
    obtain ⟨post, found⟩ := Option.ne_none_iff_exists'.1 stored
    obtain ⟨-, rfl⟩ := Entries.held_own found
    rcases List.mem_append.1 ((ahead post).2 ⟨found, facing⟩) with here | later
    · exact .inl (List.mem_map_of_mem here)
    · cases next with
      | none => cases later
      | some mark' =>
        obtain ⟨fit', -⟩ := stocked.sorted.ahead_behind fit onward
        have beyond := (stocked.mem_posts_ahead distinct known fit').1 later
        exact .inr ⟨mark', rfl, beyond.2⟩
  · rintro mark' rfl
    obtain ⟨fit', nonempty, -, beyond⟩ := stocked.sorted.ahead_behind fit onward
    refine ⟨fit', mt List.map_eq_nil_iff.1 nonempty, fun id facing => ?_⟩
    refine ⟨beyond _ facing, fun again => ?_⟩
    obtain ⟨post, member, rfl⟩ := List.mem_map.1 again
    have found := ((ahead post).1 (List.mem_append_left _ member)).1
    have later := (stocked.mem_posts_ahead distinct known fit').2 ⟨found, facing⟩
    exact apart post.id again post.id (List.mem_map_of_mem later) rfl

/-- **A listing of the file is orderly**, whatever calls are made in between, as long as no fetch
fails. -/
theorem listing_orderly {names : Set String} (distinct : Distinct names) (pageSize : Nat)
    {env : Environment} (sound : Sound names env) {user : String} (known : user ∈ names) :
    ∃ cursor, (store pageSize).serve (.readAll user) env = (.ok cursor, env) ∧
      ∀ turns, (∀ call, .call call ∈ turns → ∀ name ∈ call.names, name ∈ names) →
        ((Paging.Chronicle.start cursor env).run (store pageSize) turns).failed = false →
        ((Paging.Chronicle.start cursor env).run (store pageSize) turns).Orderly
          Environment.held user := by
  have fit := Mark.fit_first user (Nat.le_max_left 1 pageSize)
  let cursor : Pages := { mark := some ⟨userKey user, none, max 1 pageSize⟩ }
  refine ⟨cursor, congrArg (_, ·) (abandon_of_settled sound.settled), ?_⟩
  intro turns inUse calm
  have advances : ∀ cursor env, Sound names env →
      Sound names ((store pageSize).feed.next cursor env).2.2 := fun cursor env sound =>
    sound.next pageSize cursor
  have serves : ∀ call env, (∀ name ∈ call.names, name ∈ names) → Sound names env →
      Sound names ((store pageSize).serve call env).2 := fun call env known sound =>
    sound.serve distinct pageSize call known
  have begun : ∀ state ∈ (Paging.Chronicle.start cursor env).past, Sound names state :=
    List.forall_mem_singleton.2 sound
  have good := Paging.Chronicle.past_run serves advances turns inUse sound begun
  exact Paging.Chronicle.orderly_run (paged distinct known) rfl fit (fun _ _ => rfl) turns good calm

/-! ## Fetches that succeed -/

theorem Environment.serve_readerHeld (question : Ask) (env : Environment) :
    (Environment.serve question env).2.readerHeld = env.readerHeld := by
  cases question with
  | beginRead | put =>
    simp only [Environment.serve]
    split <;> rfl
  | _ => rfl

/-- No transaction takes the reader slot for good. -/
theorem transact_readerHeld {ε α : Type} (talk : ExceptT ε (Dialogue Ask Ask.Reply) α)
    (env : Environment) :
    (transact talk env).2.readerHeld = env.readerHeld :=
  Dialogue.keeps (fun env' => env'.readerHeld = env.readerHeld)
    (fun question env' same => (Environment.serve_readerHeld question env').trans same) talk.run rfl

/-- While the reader slot is free, no fetch fails. -/
theorem calm {names : Set String} (distinct : Distinct names) (pageSize : Nat) {env : Environment}
    (sound : Sound names env) (free : env.readerHeld = false) (mark : Mark)
    (turns : List Paging.Turn)
    (inUse : ∀ call, .call call ∈ turns → ∀ name ∈ call.names, name ∈ names) :
    ((Paging.Chronicle.start { mark := some mark } env).run (store pageSize) turns).failed =
      false := by
  have serves : ∀ call env, (∀ name ∈ call.names, name ∈ names) →
      Sound names env ∧ env.readerHeld = false →
        Sound names ((store pageSize).serve call env).2 ∧
          ((store pageSize).serve call env).2.readerHeld = false := fun call env known good =>
    ⟨good.1.serve distinct pageSize call known, (transact_readerHeld _ env).trans good.2⟩
  have advances : ∀ cursor env, Sound names env ∧ env.readerHeld = false →
      Sound names ((store pageSize).feed.next cursor env).2.2 ∧
        ((store pageSize).feed.next cursor env).2.2.readerHeld = false := by
    intro cursor env good
    refine ⟨good.1.next pageSize cursor, ?_⟩
    refine Cursor.next_keeps (fun env : Environment => env.readerHeld = false)
      (fun mark env _ env' same got => ?_) cursor good.2
    have kept := transact_readerHeld (fetchPage mark) env
    rw [got] at kept
    exact kept.trans same
  have gives : ∀ mark env, Sound names env ∧ env.readerHeld = false →
      ∃ page, (transact (fetchPage mark) env).1 = .ok page := by
    rintro mark env ⟨sound, free⟩
    rw [transact_fetchPage sound.settled sound.stocked.sorted, free]
    exact ⟨_, rfl⟩
  exact Paging.Chronicle.calm_run rfl serves advances gives turns inUse ⟨sound, free⟩ rfl rfl

end PostStore.Lmdb
