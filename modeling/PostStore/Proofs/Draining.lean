import PostStore.Store.Cursor
/-!
# Reading a listing to its end

What a feed delivers are the posts that it reaches one after the other before it comes to its end,
and draining it gives these, provided that it may advance often enough.  What a cursor has left is
what it has fetched and what the pages from its mark on hold.  A feed of cursors delivers exactly
the elements that are left, in order, provided that each of them is a post.
-/

namespace PostStore

/-! ## What a feed delivers -/

namespace Feed

variable {σ κ : Type}

/-- Whether a feed has come to its end: there is no element to take, and no advance reaches one or
does anything to the medium. -/
structure Ended (feed : Feed σ κ) (cursor : κ) (state : σ) : Prop where
  nothing : (feed.get cursor).1 = .error .misuse
  stays : ∃ cursor', feed.next cursor state = (false, cursor', state)

/-- From a cursor a feed reaches some posts one after the other, and then its end.  The medium is in
the final state then. -/
inductive Delivers (feed : Feed σ κ) : κ → σ → List Post → σ → Prop where
  | nothing {cursor cursor' : κ} {state final : σ}
      (stop : feed.next cursor state = (false, cursor', final))
      (ended : feed.Ended cursor' final) : Delivers feed cursor state [] final
  | post {cursor cursor' : κ} {state state' final : σ} {post : Post} {posts : List Post}
      (reached : feed.next cursor state = (true, cursor', state'))
      (taken : (feed.get cursor').1 = .ok post)
      (rest : Delivers feed (feed.get cursor').2 state' posts final) :
      Delivers feed cursor state (post :: posts) final

section Drain

variable {feed : Feed σ κ} {cursor cursor' : κ} {state state' final : σ} {post : Post}
  {posts : List Post} (limit : Nat) (got : List Post)

theorem run_drain_false (reached : feed.next cursor state = (false, cursor', state')) :
    (drain got (limit + 1)).run feed.serve (cursor, state) =
      (.ok got.reverse, cursor', state') := by
  simp only [drain, Dialogue.run, Feed.serve, reached]

theorem run_drain_error {e : StoreError}
    (reached : feed.next cursor state = (true, cursor', state'))
    (taken : (feed.get cursor').1 = .error e) :
    (drain got (limit + 1)).run feed.serve (cursor, state) =
      (.error e, (feed.get cursor').2, state') := by
  simp only [drain, Dialogue.run, Feed.serve, reached, taken]

theorem run_drain_ok (reached : feed.next cursor state = (true, cursor', state'))
    (taken : (feed.get cursor').1 = .ok post) :
    (drain got (limit + 1)).run feed.serve (cursor, state) =
      (drain (post :: got) limit).run feed.serve ((feed.get cursor').2, state') := by
  simp only [drain, Dialogue.run, Feed.serve, reached, taken]

/-- Draining gives what is delivered, behind what there is already. -/
theorem Delivers.run_drain (delivers : feed.Delivers cursor state posts final) :
    ∀ (got : List Post) {limit : Nat}, posts.length < limit →
      ∃ cursor', (drain got limit).run feed.serve (cursor, state) =
        (.ok (got.reverse ++ posts), cursor', final) := by
  induction delivers with
  | @nothing cursor cursor' state final stop ended =>
    intro got limit enough
    obtain ⟨limit, rfl⟩ := Nat.exists_eq_succ_of_ne_zero (Nat.ne_zero_of_lt enough)
    rw [List.append_nil]
    exact ⟨cursor', run_drain_false limit got stop⟩
  | @post cursor cursor' state state' final post posts reached taken rest ih =>
    intro got limit enough
    obtain ⟨limit, rfl⟩ := Nat.exists_eq_succ_of_ne_zero (Nat.ne_zero_of_lt enough)
    obtain ⟨last, run⟩ := ih (post :: got) (Nat.lt_of_succ_lt_succ enough)
    rw [List.reverse_cons, List.append_assoc, List.singleton_append] at run
    exact ⟨last, (run_drain_ok limit got reached taken).trans run⟩

/-- **A feed that is drained gives what it delivers.** -/
theorem Delivers.collect (delivers : feed.Delivers cursor state posts final)
    (enough : posts.length ≤ feed.pending cursor state) :
    (feed.collect cursor state).1 = .ok posts ∧ (feed.collect cursor state).2.2 = final := by
  obtain ⟨cursor', run⟩ := delivers.run_drain [] (Nat.lt_succ_of_le enough)
  rw [Feed.collect, PostStore.collect, Dialogue.run_bind, run]
  exact ⟨rfl, rfl⟩

end Drain

end Feed

end PostStore

namespace PostStore.Cursor

variable {σ μ δ : Type} (fetch : μ → σ → Except (Fault δ) (Page μ δ) × σ)

/-- The elements of the pages from a mark on, fetched one page after the other, and the state of the
medium after the last.  Only the last page can be empty, as an advance that reaches nothing ends a
listing. -/
inductive Ahead : Option μ → σ → List δ → σ → Prop where
  | nothing (state : σ) : Ahead none state [] state
  | last {mark : μ} {state after : σ} (fetched : fetch mark state = (.ok ([], none), after)) :
      Ahead (some mark) state [] after
  | page {mark : μ} {state after final : σ} {page rest : List δ} {next : Option μ}
      (fetched : fetch mark state = (.ok (page, next), after)) (nonempty : page ≠ [])
      (more : Ahead next after rest final) : Ahead (some mark) state (page ++ rest) final

/-- A cursor that is open has the elements left, and when it has given them all the medium will be
in the final state. -/
def Left (cursor : Cursor μ δ) (state : σ) (elements : List δ) (final : σ) : Prop :=
  cursor.closed = false ∧
    ∃ more, elements = cursor.buffer ++ more ∧ Ahead fetch cursor.mark state more final

section Steps

variable {fetch} {cursor : Cursor μ δ} {state final : σ}

/-- An advance reaches the first of the elements left. -/
theorem Left.next_cons {element : δ} {rest : List δ}
    (left : Left fetch cursor state (element :: rest) final) :
    ∃ cursor' state', next fetch cursor state = (true, cursor', state') ∧
      cursor'.current = some (.ok element) ∧ Left fetch cursor' state' rest final := by
  obtain ⟨isOpen, more, split, ahead⟩ := left
  cases fetched : cursor.buffer with
  | cons first others =>
    rw [fetched, List.cons_append] at split
    obtain ⟨rfl, rfl⟩ := List.cons.inj split
    refine ⟨{ cursor with buffer := others, current := some (.ok element) }, state, ?_, rfl, isOpen,
      more, rfl, ahead⟩
    simp [next, isOpen, fetched, advance]
  | nil =>
    rw [fetched, List.nil_append] at split
    subst split
    -- nothing fetched is left, so the element is the first of the next page
    generalize marked : cursor.mark = mark at ahead
    generalize eq : element :: rest = elements at ahead
    cases ahead with
    | nothing => cases eq
    | last => cases eq
    | @page mark _ after _ page others next got nonempty more =>
      cases page with
      | nil => exact absurd rfl nonempty
      | cons first page =>
        rw [List.cons_append] at eq
        obtain ⟨rfl, rfl⟩ := List.cons.inj eq
        refine ⟨{ cursor with mark := next, buffer := page, current := some (.ok element) }, after,
          ?_, rfl, isOpen, others, rfl, more⟩
        simp [Cursor.next, isOpen, fetched, marked, got, advance]

/-- When nothing is left, an advance reaches nothing, and nothing is left after it. -/
theorem Left.next_nil (left : Left fetch cursor state [] final) :
    ∃ cursor', next fetch cursor state = (false, cursor', final) ∧ cursor'.current = none ∧
      Left fetch cursor' final [] final := by
  obtain ⟨isOpen, more, split, ahead⟩ := left
  obtain ⟨fetched, rfl⟩ := List.append_eq_nil_iff.1 split.symm
  generalize marked : cursor.mark = mark at ahead
  generalize eq : ([] : List δ) = elements at ahead
  cases ahead with
  | nothing state =>
    refine ⟨{ cursor with current := none }, ?_, rfl, isOpen, [], ?_, ?_⟩
    · simp [next, isOpen, fetched, marked, advance]
    · rw [fetched, List.append_nil]
    · rw [marked]
      exact .nothing state
  | last got =>
    refine ⟨{ cursor with mark := none, current := none }, ?_, rfl, isOpen, [], ?_, .nothing final⟩
    · simp [next, isOpen, fetched, marked, got, advance]
    · rw [fetched, List.append_nil]
  | page _ nonempty => exact absurd (List.append_eq_nil_iff.1 eq.symm).1 nonempty

variable (decode : δ → Except StoreError Post) (bound : μ → σ → Nat)

/-- When nothing is left, an advance comes to the end. -/
theorem Left.stops (left : Left fetch cursor state [] final) :
    ∃ cursor', next fetch cursor state = (false, cursor', final) ∧
      (feed fetch decode bound).Ended cursor' final := by
  obtain ⟨cursor', step, nothing, left'⟩ := left.next_nil
  obtain ⟨cursor'', step', -⟩ := left'.next_nil
  refine ⟨cursor', step, ?_, cursor'', step'⟩
  show (Cursor.get decode cursor').1 = .error .misuse
  rw [Cursor.get, nothing]

/-- A feed delivers the elements that its cursor has left. -/
theorem Left.delivers (posts : List Post) :
    ∀ {cursor : Cursor μ δ} {state : σ} {elements : List δ},
      Left fetch cursor state elements final → elements.map decode = posts.map .ok →
        (feed fetch decode bound).Delivers cursor state posts final := by
  induction posts with
  | nil =>
    intro cursor state elements left decoded
    obtain rfl := List.map_eq_nil_iff.1 decoded
    obtain ⟨cursor', step, ended⟩ := left.stops decode bound
    exact .nothing step ended
  | cons post posts ih =>
    intro cursor state elements left decoded
    cases elements with
    | nil => cases decoded
    | cons element elements =>
      obtain ⟨isPost, others⟩ := List.cons.inj decoded
      obtain ⟨cursor', state', step, reached, left'⟩ := left.next_cons
      -- taking the element changes nothing of what is left
      have taken : Cursor.get decode cursor' = (.ok post, { cursor' with current := none }) := by
        rw [Cursor.get, reached, ← isPost]
      refine .post step (congrArg Prod.fst taken) ?_
      show (feed fetch decode bound).Delivers (Cursor.get decode cursor').2 state' posts final
      rw [taken]
      exact ih left' others

/-- **A feed that is drained gives what its cursor has left.** -/
theorem Left.collect {elements : List δ} {posts : List Post}
    (left : Left fetch cursor state elements final) (decoded : elements.map decode = posts.map .ok)
    (enough : posts.length ≤ (feed fetch decode bound).pending cursor state) :
    ((feed fetch decode bound).collect cursor state).1 = .ok posts ∧
      ((feed fetch decode bound).collect cursor state).2.2 = final :=
  (left.delivers decode bound posts decoded).collect enough

end Steps

end PostStore.Cursor

namespace PostStore

/-- A snapshot delivers its posts, in any medium. -/
theorem Snapshot.delivers_ofList {σ : Type} (posts : List Post) (state : σ) :
    feed.Delivers (ofList posts) state posts state := by
  have left : Cursor.Left (fun mark _ => mark.elim) (ofList posts) state posts state :=
    ⟨rfl, [], (List.append_nil _).symm, .nothing state⟩
  exact left.delivers .ok (fun _ _ => 0) posts rfl

/-- A snapshot that is drained gives its posts, in any medium. -/
theorem Snapshot.collect_ofList {σ : Type} (posts : List Post) (state : σ) :
    (feed.collect (ofList posts) state).1 = .ok posts ∧
      (feed.collect (ofList posts) state).2.2 = state :=
  (delivers_ofList posts state).collect (Nat.le_add_right _ _)

/-! ## What a listing keeps -/

section Keeping

variable {σ κ μ δ : Type} (keep : σ → Prop)

/-- What every question keeps is kept by a dialogue. -/
theorem Dialogue.keeps {Q : Type} {R : Q → Type} {α : Type}
    {serve : (question : Q) → σ → R question × σ}
    (each : ∀ question s, keep s → keep (serve question s).2) (d : Dialogue Q R α) :
    ∀ {s : σ}, keep s → keep (d.run serve s).2 := by
  induction d with
  | done value => exact fun good => good
  | ask question next ih => exact fun good => ih _ (each question _ good)

/-- What every fetch keeps is kept by an advance. -/
theorem Cursor.next_keeps {fetch : μ → σ → Except (Fault δ) (Page μ δ) × σ}
    (each : ∀ mark s result s', keep s → fetch mark s = (result, s') → keep s')
    (cursor : Cursor μ δ) {s : σ} (good : keep s) : keep (next fetch cursor s).2.2 := by
  unfold next
  split
  · exact good
  · split
    · rename_i mark _ _
      split <;> rename_i fetched
      · exact each mark s _ _ good fetched
      · exact each mark s _ _ good fetched
    · exact good

/-- So it is when pages are fetched at once. -/
theorem Cursor.next_atOnce_keeps {fetch : μ → σ → Except StoreError (Page μ δ) × σ}
    (each : ∀ mark s result s', keep s → fetch mark s = (result, s') → keep s')
    (cursor : Cursor μ δ) {s : σ} (good : keep s) :
    keep (next (atOnce fetch) cursor s).2.2 := by
  refine Cursor.next_keeps keep (fun mark s result s' good got => ?_) cursor good
  obtain rfl : (fetch mark s).2 = s' := congrArg Prod.snd got
  exact each mark s _ _ good rfl

/-- What every advance keeps is kept by a listing. -/
theorem Feed.collect_keeps {feed : Feed σ κ}
    (each : ∀ cursor s, keep s → keep (feed.next cursor s).2.2) (cursor : κ) {s : σ}
    (good : keep s) : keep (feed.collect cursor s).2.2 := by
  have step : ∀ (question : FeedAsk) (state : κ × σ), keep state.2 →
      keep (feed.serve question state).2.2 := by
    rintro question ⟨cursor, s⟩ good
    cases question with
    | next => exact each cursor s good
    | get => exact good
    | close => exact good
  exact Dialogue.keeps (fun state : κ × σ => keep state.2) step _ good

end Keeping

end PostStore
