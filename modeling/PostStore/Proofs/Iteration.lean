import PostStore.Proofs.Asking
/-!
# The contract of a listing

Whatever is asked of a cursor and whatever the medium answers: an element can be taken once, right
after the advance that reached it; a failed fetch takes the place of an element, what it had got
comes after it, and nothing more is fetched; once an advance has reached nothing, or the rest has
been given up, nothing is reached any more; and what is taken comes in the order in which a plain
loop would have it.
-/

namespace PostStore

/-! ## The contract -/

namespace Cursor

/-- The mark from which an advance would fetch, if it would. -/
def due {μ δ : Type} (cursor : Cursor μ δ) : Option μ :=
  if cursor.closed = false ∧ cursor.buffer = [] then cursor.mark else none

section Contract

variable {σ μ δ : Type} (answers : μ → σ → Except (Fault δ) (Page μ δ) → σ → Prop)
  (decode : δ → Except StoreError Post)

/-- The elements that the pages from a mark on hold, as far as `count` pages go, by what the medium
answers when they are fetched.  A failed fetch stands for an element; behind it comes what it had
got, and that is the last. -/
inductive Holds : (count : Nat) → Option μ → σ → List Delivery → Prop where
  | enough {mark : Option μ} {state : σ} : Holds 0 mark state []
  | nothing {count : Nat} {state : σ} : Holds count none state []
  | failed {count : Nat} {mark : μ} {state state' : σ} {fault : Fault δ}
      (answered : answers mark state (.error fault) state') :
      Holds (count + 1) (some mark) state (.error fault.error :: fault.got.map decode)
  | page {count : Nat} {mark : μ} {state state' : σ} {page : List δ} {next : Option μ}
      {rest : List Delivery} (answered : answers mark state (.ok (page, next)) state')
      (more : Holds count next state' rest) :
      Holds (count + 1) (some mark) state (page.map decode ++ rest)

/-- What holders of a cursor can rely on, whatever they ask and whatever the medium answers. -/
structure KeepsContract (feed : Feed σ (Cursor μ δ)) (cursor : Cursor μ δ) (state : σ) :
    Prop where
  /-- An attempt to take an element delivers the one that the last advance has reached, if that
  advance reached one and there has been no other attempt and no giving up since; otherwise, and
  only then, it is misuse. -/
  taken : ∀ questions place before result place' after,
    replies feed.ask questions ⟨cursor, place, state⟩ = before ++ .get result place' :: after →
      (result = .error .misuse ↔ ¬ Waits before) ∧
        (Waits before → ∃ earlier, feed.loop (before.countP Seen.reaches) cursor state =
          earlier ++ [Seen.delivery result place'])
  /-- When an attempt fails, the place is as it was. -/
  untouched : ∀ questions place before e place' after,
    replies feed.ask questions ⟨cursor, place, state⟩ =
        before ++ .get (.error e) place' :: after →
      place' = placeAfter place before
  /-- Once an advance has reached nothing or the rest has been given up, nothing is reached. -/
  spent : ∀ questions place before more after,
    replies feed.ask questions ⟨cursor, place, state⟩ = before ++ .next more :: after →
      .next false ∈ before ∨ .close ∈ before → more = false
  /-- When the medium answers an advance with a failure, the advance reaches an element, which is
  the failure.  What had been got before can be reached after it, and nothing else. -/
  failure : ∀ questions place mark fault state' later,
    let holding := feed.askAll questions ⟨cursor, place, state⟩
    holding.cursor.due = some mark → answers mark holding.state (.error fault) state' →
      ∃ seen, replies feed.ask (.next :: .get :: later) holding =
          .next true :: .get (.error fault.error) holding.place :: seen ∧
        seen.countP Seen.reaches ≤ fault.got.length ∧
        (deliveries seen).Sublist (fault.got.map decode)
  /-- What is delivered is delivered in the order of a plain loop. -/
  order : ∀ questions place,
    (deliveries (replies feed.ask questions ⟨cursor, place, state⟩)).Sublist
      (feed.loop questions.length cursor state)
  /-- A plain loop delivers what has been fetched and what the pages ahead hold. -/
  loop : ∀ count contents, Holds answers decode count cursor.mark state contents →
    feed.loop count cursor state = (cursor.buffer.map decode ++ contents).take count

variable (fetch : μ → σ → Except (Fault δ) (Page μ δ) × σ)

/-- A fetch comes to what the medium answers. -/
def Heeds : Prop := ∀ mark state result state',
  answers mark state result state' → fetch mark state = (result, state')

/-- What a fetch may come to: a failure, but not that of misuse; or a page, which has elements
unless it is the last, and leads to a mark of a kind. -/
def Fruitful (valid : μ → Prop) : Except (Fault δ) (Page μ δ) → Prop
  | .error fault => fault.error ≠ .misuse
  | .ok (page, next) => (page = [] → next = none) ∧ ∀ mark ∈ next, valid mark

/-- From marks of a kind fetches are fruitful, and no element fails as misuse does. -/
structure Productive (valid : μ → Prop) : Prop where
  fetched : ∀ mark state, valid mark → Fruitful valid (fetch mark state).1
  element : ∀ element e, decode element = .error e → e ≠ .misuse

end Contract

/-! ## Advancing and taking -/

section Steps

variable {σ μ δ : Type} {fetch : μ → σ → Except (Fault δ) (Page μ δ) × σ}
  {answers : μ → σ → Except (Fault δ) (Page μ δ) → σ → Prop}
  {decode : δ → Except StoreError Post} {bound : μ → σ → Nat} {valid : μ → Prop}
  {cursor : Cursor μ δ} {state : σ}

/-- Whether nothing can be reached any more. -/
def Spent (cursor : Cursor μ δ) : Prop :=
  cursor.closed = true ∨ cursor.buffer = [] ∧ cursor.mark = none

/-- What is delivered for an element that was reached. -/
def deliver (decode : δ → Except StoreError Post) (element : Except StoreError δ) : Delivery :=
  element.bind decode

theorem Productive.page (productive : Productive decode fetch valid) {mark : μ} {page : List δ}
    {next : Option μ} {state state' : σ} (fit : valid mark)
    (got : fetch mark state = (.ok (page, next), state')) :
    (page = [] → next = none) ∧ ∀ mark ∈ next, valid mark := by
  have fruitful := productive.fetched mark state fit
  rw [got] at fruitful
  exact fruitful

theorem Productive.failure (productive : Productive decode fetch valid) {mark : μ} {fault : Fault δ}
    {state state' : σ} (fit : valid mark) (got : fetch mark state = (.error fault, state')) :
    fault.error ≠ .misuse := by
  have fruitful := productive.fetched mark state fit
  rw [got] at fruitful
  exact fruitful

/-- What an advance comes to, when pages but the last have elements. -/
inductive Advances (fetch : μ → σ → Except (Fault δ) (Page μ δ) × σ) (cursor : Cursor μ δ)
    (state : σ) : Bool × Cursor μ δ × σ → Prop where
  | closed (shut : cursor.closed = true) : Advances fetch cursor state (false, cursor, state)
  | drained (opened : cursor.closed = false) (empty : cursor.buffer = [])
      (unmarked : cursor.mark = none) :
      Advances fetch cursor state (false, { cursor with current := none }, state)
  | fetched {element : δ} {rest : List δ} (opened : cursor.closed = false)
      (left : cursor.buffer = element :: rest) :
      Advances fetch cursor state
        (true, { cursor with buffer := rest, current := some (.ok element) }, state)
  | failed {mark : μ} {fault : Fault δ} {state' : σ} (opened : cursor.closed = false)
      (empty : cursor.buffer = []) (marked : cursor.mark = some mark)
      (got : fetch mark state = (.error fault, state')) :
      Advances fetch cursor state
        (true,
          { cursor with mark := none, buffer := fault.got, current := some (.error fault.error) },
          state')
  | last {mark : μ} {state' : σ} (opened : cursor.closed = false)
      (empty : cursor.buffer = []) (marked : cursor.mark = some mark)
      (got : fetch mark state = (.ok ([], none), state')) :
      Advances fetch cursor state
        (false, { cursor with mark := none, buffer := [], current := none }, state')
  | page {mark : μ} {element : δ} {rest : List δ} {next : Option μ} {state' : σ}
      (opened : cursor.closed = false) (empty : cursor.buffer = [])
      (marked : cursor.mark = some mark)
      (got : fetch mark state = (.ok (element :: rest, next), state')) :
      Advances fetch cursor state
        (true, { cursor with mark := next, buffer := rest, current := some (.ok element) }, state')

theorem advances (productive : Productive decode fetch valid)
    (marks : ∀ mark ∈ cursor.mark, valid mark) (state : σ) :
    Advances fetch cursor state (Cursor.next fetch cursor state) := by
  obtain ⟨mark, buffer, current, closed⟩ := cursor
  cases closed with
  | true => exact .closed rfl
  | false =>
    cases buffer with
    | cons element rest => exact .fetched rfl rfl
    | nil =>
      cases mark with
      | none => exact .drained rfl rfl rfl
      | some mark =>
        rcases got : fetch mark state with ⟨fault | ⟨page, next⟩, state'⟩
        · have reached : Cursor.next fetch ⟨some mark, [], current, false⟩ state =
              (true, ⟨none, fault.got, some (.error fault.error), false⟩, state') := by
            simp [Cursor.next, got]
          rw [reached]
          exact .failed rfl rfl rfl got
        · cases page with
          | nil =>
            obtain rfl : next = none :=
              (productive.page (marks mark rfl) got).1 rfl
            have reached : Cursor.next fetch ⟨some mark, [], current, false⟩ state =
                (false, ⟨none, [], none, false⟩, state') := by
              simp [Cursor.next, got, advance]
            rw [reached]
            exact .last rfl rfl rfl got
          | cons element rest =>
            have reached : Cursor.next fetch ⟨some mark, [], current, false⟩ state =
                (true, ⟨next, rest, some (.ok element), false⟩, state') := by
              simp [Cursor.next, got, advance]
            rw [reached]
            exact .page rfl rfl rfl got

/-- When nothing can be reached any more, an advance reaches nothing, and leaves it so. -/
theorem Spent.next (spent : cursor.Spent) (fetch : μ → σ → Except (Fault δ) (Page μ δ) × σ)
    (state : σ) :
    (Cursor.next fetch cursor state).1 = false ∧ (Cursor.next fetch cursor state).2.1.Spent := by
  obtain ⟨mark, buffer, current, closed⟩ := cursor
  rcases spent with shut | ⟨empty, unmarked⟩
  · obtain rfl : closed = true := shut
    exact ⟨rfl, .inl rfl⟩
  · obtain rfl : buffer = [] := empty
    obtain rfl : mark = none := unmarked
    cases closed with
    | true => exact ⟨rfl, .inl rfl⟩
    | false => exact ⟨rfl, .inr ⟨rfl, rfl⟩⟩

/-! ## The plain loop -/

theorem Spent.loop (spent : cursor.Spent) (count : Nat) (state : σ) :
    (feed fetch decode bound).loop count cursor state = [] :=
  Feed.loop_false (Prod.ext (spent.next fetch state).1 rfl) count

/-- The element that an advance has reached is taken. -/
theorem get_eq (decode : δ → Except StoreError Post) {element : Except StoreError δ}
    (waits : cursor.current = some element) :
    Cursor.get decode cursor = (deliver decode element, { cursor with current := none }) := by
  unfold Cursor.get
  rw [waits]
  cases element <;> rfl

/-- What an earlier advance has reached does not matter to the loop. -/
theorem loop_current (current : Option (Except StoreError δ)) (count : Nat) (state : σ) :
    (feed fetch decode bound).loop count { cursor with current := current } state =
      (feed fetch decode bound).loop count cursor state := by
  by_cases shut : cursor.closed = true
  · have shut' : ({ cursor with current := current } : Cursor μ δ).Spent := .inl shut
    rw [shut'.loop, Spent.loop (.inl shut)]
  · have alike : Cursor.next fetch { cursor with current := current } state =
        Cursor.next fetch cursor state := by
      unfold Cursor.next
      rw [if_neg shut, if_neg shut]
      rfl
    cases count with
    | zero => rfl
    | succ count =>
      rcases reached : Cursor.next fetch cursor state with ⟨more, cursor', state'⟩
      rw [reached] at alike
      cases more with
      | false => rw [Feed.loop_false alike, Feed.loop_false reached]
      | true => rw [Feed.loop_true alike, Feed.loop_true reached]

/-- The loop takes each element that it reaches, and goes on. -/
theorem loop_succ {cursor' : Cursor μ δ} {state' : σ} {element : Except StoreError δ}
    (reached : Cursor.next fetch cursor state = (true, cursor', state'))
    (waits : cursor'.current = some element) (count : Nat) :
    (feed fetch decode bound).loop (count + 1) cursor state =
      deliver decode element :: (feed fetch decode bound).loop count cursor' state' := by
  have advanced : (feed fetch decode bound).next cursor state = (true, cursor', state') := reached
  rw [Feed.loop_true advanced]
  show (Cursor.get decode cursor').1 ::
    (feed fetch decode bound).loop count (Cursor.get decode cursor').2 state' = _
  rw [get_eq decode waits, loop_current]

/-- Where a fetch fails there is its failure, and behind it what it had got. -/
theorem Holds.of_failed (heeds : Heeds answers fetch) {count : Nat} {mark : μ} {state state' : σ}
    {contents : List Delivery} {fault : Fault δ}
    (holds : Holds answers decode (count + 1) (some mark) state contents)
    (got : fetch mark state = (.error fault, state')) :
    contents = .error fault.error :: fault.got.map decode := by
  cases holds with
  | failed answered =>
    cases (heeds _ _ _ _ answered).symm.trans got
    rfl
  | page answered more => cases (heeds _ _ _ _ answered).symm.trans got

/-- Where a page is fetched there are its elements, and behind them what the next pages hold. -/
theorem Holds.of_page (heeds : Heeds answers fetch) {count : Nat} {mark : μ} {state state' : σ}
    {contents : List Delivery} {page : List δ} {next : Option μ}
    (holds : Holds answers decode (count + 1) (some mark) state contents)
    (got : fetch mark state = (.ok (page, next), state')) :
    ∃ rest, contents = page.map decode ++ rest ∧ Holds answers decode count next state' rest := by
  cases holds with
  | failed answered => cases (heeds _ _ _ _ answered).symm.trans got
  | page answered more =>
    cases (heeds _ _ _ _ answered).symm.trans got
    exact ⟨_, rfl, more⟩

/-- Longer listings begin as shorter ones. -/
theorem Holds.shorter (heeds : Heeds answers fetch) (productive : Productive decode fetch valid)
    (count : Nat) :
    ∀ {next : Option μ} {state : σ} {contents : List Delivery}, (∀ mark ∈ next, valid mark) →
      Holds answers decode (count + 1) next state contents →
        ∃ fewer, Holds answers decode count next state fewer ∧
          ∀ few ≤ count, contents.take few = fewer.take few := by
  induction count with
  | zero =>
    intro next state contents marks holds
    refine ⟨[], .enough, fun few le => ?_⟩
    rw [Nat.le_zero.1 le, List.take_zero, List.take_zero]
  | succ count ih =>
    intro next state contents marks holds
    cases holds with
    | nothing => exact ⟨[], .nothing, fun _ _ => rfl⟩
    | failed answered => exact ⟨_, .failed answered, fun _ _ => rfl⟩
    | @page _ mark _ state' page next rest answered more =>
      obtain ⟨nonempty, marks'⟩ := productive.page (marks mark rfl) (heeds _ _ _ _ answered)
      cases page with
      | nil =>
        obtain rfl := nonempty rfl
        cases more
        exact ⟨_, .page answered .nothing, fun _ _ => rfl⟩
      | cons element others =>
        obtain ⟨fewer, holds, same⟩ := ih marks' more
        refine ⟨_, .page answered holds, fun few le => ?_⟩
        have less : few - ((element :: others).map decode).length ≤ count := by
          rw [List.length_map, List.length_cons]
          omega
        rw [List.take_append, List.take_append, same _ less]

/-- The loop delivers what has been fetched, and then what the pages hold. -/
theorem loop_eq (heeds : Heeds answers fetch) (productive : Productive decode fetch valid)
    (count : Nat) :
    ∀ (cursor : Cursor μ δ) (state : σ) (contents : List Delivery),
      (∀ mark ∈ cursor.mark, valid mark) → cursor.closed = false →
        Holds answers decode count cursor.mark state contents →
          (feed fetch decode bound).loop count cursor state =
            (cursor.buffer.map decode ++ contents).take count := by
  induction count with
  | zero => exact fun _ _ _ _ _ _ => rfl
  | succ count ih =>
    intro cursor state contents marks opened holds
    have step := advances productive marks state
    rcases reached : Cursor.next fetch cursor state with ⟨more, cursor', state'⟩
    rw [reached] at step
    cases step with
    | closed shut => rw [opened] at shut; cases shut
    | drained _ empty unmarked =>
      rw [unmarked] at holds
      cases holds
      rw [Feed.loop_false reached, empty]
      rfl
    | @fetched element rest _ left =>
      obtain ⟨fewer, holds', same⟩ := holds.shorter heeds productive count marks
      have onward := ih { cursor with buffer := rest, current := some (.ok element) } state fewer
        marks opened holds'
      rw [loop_succ reached rfl, onward, left, List.map_cons, List.cons_append,
        List.take_succ_cons, List.take_append, List.take_append, same _ (Nat.sub_le _ _)]
      rfl
    | @failed mark fault state' _ empty marked got =>
      rw [marked] at holds
      have onward := ih
        { cursor with mark := none, buffer := fault.got, current := some (.error fault.error) }
        state' [] (by simp) opened .nothing
      obtain rfl := holds.of_failed heeds got
      rw [loop_succ reached rfl, onward, empty, List.append_nil]
      rfl
    | @last mark state' _ empty marked got =>
      rw [marked] at holds
      obtain ⟨rest, rfl, more⟩ := holds.of_page heeds got
      have nothing : (feed fetch decode bound).loop (count + 1) cursor state = [] :=
        Feed.loop_false reached (count + 1)
      cases more <;> rw [nothing, empty] <;> rfl
    | @page mark element rest next state' _ empty marked got =>
      rw [marked] at holds
      have fit := (productive.page (marks mark marked) got).2
      obtain ⟨behind, rfl, more⟩ := holds.of_page heeds got
      have onward := ih
        { cursor with mark := next, buffer := rest, current := some (.ok element) }
        state' _ fit opened more
      rw [loop_succ reached rfl, onward, empty]
      rfl

end Steps

/-! ## Underway -/

section Underway

variable {σ μ δ : Type} {fetch : μ → σ → Except (Fault δ) (Page μ δ) × σ}
  {decode : δ → Except StoreError Post} {bound : μ → σ → Nat} {valid : μ → Prop}

/-- What is the case of a cursor at any time: its mark is of the kind, no element waits at one given
up, and no failure is that of misuse. -/
structure Fit (valid : μ → Prop) (cursor : Cursor μ δ) : Prop where
  marks : ∀ mark ∈ cursor.mark, valid mark
  shut : cursor.closed = true → cursor.current = none
  regular : ∀ e, cursor.current = some (.error e) → e ≠ .misuse

/-- How matters stand with a cursor, some time after it was at the start of the listing, and what
has been seen since. -/
structure Underway (fetch : μ → σ → Except (Fault δ) (Page μ δ) × σ)
    (decode : δ → Except StoreError Post) (bound : μ → σ → Nat) (valid : μ → Prop)
    (start : Holding σ (Cursor μ δ)) (seen : List Seen) (holding : Holding σ (Cursor μ δ)) :
    Prop where
  fit : holding.cursor.Fit valid
  spent : .next false ∈ seen ∨ .close ∈ seen → holding.cursor.Spent
  place : holding.place = placeAfter start.place seen
  waits : Waits seen ↔ holding.cursor.current ≠ none
  /-- The loop would go on as from here. -/
  ahead : holding.cursor.closed = false → ∀ count,
    (feed fetch decode bound).loop (seen.countP Seen.reaches + count) start.cursor start.state =
      (feed fetch decode bound).loop (seen.countP Seen.reaches) start.cursor start.state ++
        (feed fetch decode bound).loop count holding.cursor holding.state
  /-- The loop would have delivered all that was delivered, and last what waits. -/
  order : ∃ earlier,
    (feed fetch decode bound).loop (seen.countP Seen.reaches) start.cursor start.state =
        earlier ++ (holding.cursor.current.map (deliver decode)).toList ∧
      (deliveries seen).Sublist earlier

variable {start holding : Holding σ (Cursor μ δ)} {seen : List Seen}

theorem underway_start (fit : start.cursor.Fit valid) (idle : start.cursor.current = none) :
    Underway fetch decode bound valid start [] start := by
  constructor
  · exact fit
  · simp
  · rfl
  · simp [Waits, idle]
  · intro opened count
    rw [List.countP_nil, Nat.zero_add]
    rfl
  · refine ⟨[], ?_, ?_⟩
    · rw [idle]
      rfl
    · exact List.Sublist.refl []

/-- Whatever waited, the loop would have delivered all that was delivered. -/
theorem Underway.delivered (underway : Underway fetch decode bound valid start seen holding) :
    (deliveries seen).Sublist
      ((feed fetch decode bound).loop (seen.countP Seen.reaches) start.cursor start.state) := by
  obtain ⟨earlier, eq, sub⟩ := underway.order
  rw [eq]
  exact sub.trans (List.sublist_append_left _ _)

/-! ### One question -/

/-- An advance that reaches an element leaves it waiting. -/
theorem Fit.next_true {cursor cursor' : Cursor μ δ} {state state' : σ} (fit : cursor.Fit valid)
    (productive : Productive decode fetch valid)
    (reached : Cursor.next fetch cursor state = (true, cursor', state')) :
    cursor.closed = false ∧ cursor'.Fit valid ∧ ∃ element, cursor'.current = some element := by
  have step := advances productive fit.marks state
  rw [reached] at step
  have opened : cursor.closed = false := by
    cases step <;> assumption
  refine ⟨opened, ?_, ?_⟩
  · cases step with
    | fetched => exact ⟨fit.marks, by simp [opened], by simp⟩
    | @failed mark e _ _ _ marked got =>
      refine ⟨by simp, by simp [opened], ?_⟩
      intro e' same
      obtain rfl := Except.error.inj (Option.some.inj same)
      exact productive.failure (fit.marks mark marked) got
    | @page mark _ _ _ _ _ _ marked got =>
      exact ⟨(productive.page (fit.marks mark marked) got).2, by simp [opened], by simp⟩
  · cases step <;> exact ⟨_, rfl⟩

/-- After an advance that reaches nothing, none waits, and nothing can be reached any more. -/
theorem Fit.next_false {cursor cursor' : Cursor μ δ} {state state' : σ} (fit : cursor.Fit valid)
    (productive : Productive decode fetch valid)
    (reached : Cursor.next fetch cursor state = (false, cursor', state')) :
    cursor'.Fit valid ∧ cursor'.Spent ∧ cursor'.current = none ∧
      cursor'.closed = cursor.closed := by
  have step := advances productive fit.marks state
  rw [reached] at step
  cases step with
  | closed shut => exact ⟨fit, .inl shut, fit.shut shut, rfl⟩
  | drained _ empty unmarked =>
    exact ⟨⟨fit.marks, fun _ => rfl, by simp⟩, .inr ⟨empty, unmarked⟩, rfl, rfl⟩
  | last => exact ⟨⟨by simp, fun _ => rfl, by simp⟩, .inr ⟨rfl, rfl⟩, rfl, rfl⟩

theorem ask_next {more : Bool} {cursor' : Cursor μ δ} {state' : σ}
    (reached : Cursor.next fetch holding.cursor holding.state = (more, cursor', state')) :
    (feed fetch decode bound).ask .next holding =
      (.next more, ⟨cursor', holding.place, state'⟩) := by
  simp [Feed.ask, feed, reached]

variable (fetch decode bound) in
/-- An element that waits is delivered, into the place unless it has failed, and waits no more. -/
theorem ask_get {element : Except StoreError δ} (waits : holding.cursor.current = some element) :
    ∃ result place, (feed fetch decode bound).ask .get holding =
        (.get result place, ⟨{ holding.cursor with current := none }, place, holding.state⟩) ∧
      Seen.delivery result place = deliver decode element ∧
        ∀ e, result = .error e → place = holding.place := by
  cases delivered : deliver decode element with
  | ok post =>
    refine ⟨.ok (), post, ?_, rfl, by simp⟩
    have taken := get_eq decode waits
    rw [delivered] at taken
    simp [Feed.ask, Feed.getInto, feed, taken]
  | error e =>
    refine ⟨.error e, holding.place, ?_, rfl, fun _ _ => rfl⟩
    have taken := get_eq decode waits
    rw [delivered] at taken
    simp [Feed.ask, Feed.getInto, feed, taken]

/-- When none waits, an attempt to take one is misuse and changes nothing. -/
theorem ask_get_misuse (idle : holding.cursor.current = none) :
    (feed fetch decode bound).ask .get holding =
      (.get (.error .misuse) holding.place, holding) := by
  have taken : Cursor.get decode holding.cursor = (.error .misuse, holding.cursor) := by
    rw [Cursor.get, idle]
  simp [Feed.ask, Feed.getInto, feed, taken]

/-! ### The steps -/

section

variable (underway : Underway fetch decode bound valid start seen holding)
  (productive : Productive decode fetch valid)

include underway productive

theorem Underway.next : Underway fetch decode bound valid start
    (seen ++ [((feed fetch decode bound).ask .next holding).1])
    ((feed fetch decode bound).ask .next holding).2 := by
  rcases reached : Cursor.next fetch holding.cursor holding.state with ⟨more, cursor', state'⟩
  rw [ask_next reached]
  have same : deliveries (seen ++ [.next more]) = deliveries seen :=
    deliveries_append_other (.inr (by simp))
  cases more with
  | false =>
    obtain ⟨fit, spent, idle, shut⟩ := underway.fit.next_false productive reached
    have count : (seen ++ [Seen.next false]).countP Seen.reaches = seen.countP Seen.reaches := by
      simp [Seen.reaches]
    constructor
    · exact fit
    · exact fun _ => spent
    · rw [placeAfter_append]
      exact underway.place
    · rw [waits_append_singleton, idle]
      simp
    · intro opened more
      have nothing : (feed fetch decode bound).loop more holding.cursor holding.state = [] :=
        Feed.loop_false reached more
      rw [count, underway.ahead (shut ▸ opened) more, nothing, spent.loop]
    · refine ⟨_, ?_, same ▸ underway.delivered⟩
      rw [count, idle]
      exact (List.append_nil _).symm
  | true =>
    obtain ⟨opened, fit, element, waits⟩ := underway.fit.next_true productive reached
    have count : (seen ++ [Seen.next true]).countP Seen.reaches =
        seen.countP Seen.reaches + 1 := by
      simp [Seen.reaches]
    have further : ∀ more, (feed fetch decode bound).loop (seen.countP Seen.reaches + 1 + more)
          start.cursor start.state =
        (feed fetch decode bound).loop (seen.countP Seen.reaches) start.cursor start.state ++
          deliver decode element :: (feed fetch decode bound).loop more cursor' state' := by
      intro more
      rw [Nat.add_assoc, Nat.add_comm 1, underway.ahead opened, loop_succ reached waits]
    constructor
    · exact fit
    · intro past
      exfalso
      have stays := ((underway.spent (by simpa using past)).next fetch holding.state).1
      rw [reached] at stays
      cases stays
    · rw [placeAfter_append]
      exact underway.place
    · rw [waits_append_singleton, waits]
      simp
    · intro _ more
      rw [count, further, ← Nat.add_zero (_ + 1), further]
      simp [Feed.loop]
    · refine ⟨_, ?_, same ▸ underway.delivered⟩
      rw [count, waits, ← Nat.add_zero (_ + 1), further]
      rfl

omit productive in
theorem Underway.get : Underway fetch decode bound valid start
    (seen ++ [((feed fetch decode bound).ask .get holding).1])
    ((feed fetch decode bound).ask .get holding).2 := by
  obtain ⟨earlier, order, delivered⟩ := underway.order
  cases waiting : holding.cursor.current with
  | none =>
    rw [ask_get_misuse waiting]
    have idle : ¬ Waits seen := fun waits => underway.waits.1 waits waiting
    have count : (seen ++ [Seen.get (.error .misuse) holding.place]).countP Seen.reaches =
        seen.countP Seen.reaches := by
      simp [Seen.reaches]
    constructor
    · exact underway.fit
    · intro past
      exact underway.spent (by simpa using past)
    · rw [placeAfter_append]
      rfl
    · rw [waits_append_singleton, waiting]
      simp
    · rw [count]
      exact underway.ahead
    · refine ⟨earlier, ?_, ?_⟩
      · rw [count]
        exact order
      · rw [deliveries_append_other (.inl idle)]
        exact delivered
  | some element =>
    have waits : Waits seen := underway.waits.2 (by simp [waiting])
    obtain ⟨result, place, asked, same, -⟩ := ask_get fetch decode bound waiting
    rw [asked]
    have count : (seen ++ [Seen.get result place]).countP Seen.reaches =
        seen.countP Seen.reaches := by
      simp [Seen.reaches]
    constructor
    · exact ⟨underway.fit.marks, fun _ => rfl, by simp⟩
    · intro past
      exact underway.spent (by simpa using past)
    · rw [placeAfter_append]
      rfl
    · rw [waits_append_singleton]
      simp
    · intro opened more
      rw [count, underway.ahead opened more]
      exact congrArg _ (loop_current none more holding.state).symm
    · rw [waiting] at order
      refine ⟨earlier ++ [deliver decode element], ?_, ?_⟩
      · rw [count, order]
        simp
      · rw [deliveries_append_get result place waits, same]
        exact delivered.append_right _

omit productive in
theorem Underway.close : Underway fetch decode bound valid start
    (seen ++ [((feed fetch decode bound).ask .close holding).1])
    ((feed fetch decode bound).ask .close holding).2 := by
  show Underway fetch decode bound valid start (seen ++ [Seen.close])
    { holding with cursor := holding.cursor.close }
  have count : (seen ++ [Seen.close]).countP Seen.reaches = seen.countP Seen.reaches := by
    simp [Seen.reaches]
  constructor
  · exact ⟨underway.fit.marks, fun _ => rfl, by simp [Cursor.close]⟩
  · exact fun _ => .inl rfl
  · rw [placeAfter_append]
    exact underway.place
  · rw [waits_append_singleton]
    simp [Cursor.close]
  · exact fun opened => absurd opened (by simp [Cursor.close])
  · refine ⟨(feed fetch decode bound).loop (seen.countP Seen.reaches) start.cursor start.state,
      ?_, ?_⟩
    · rw [count]
      exact (List.append_nil _).symm
    · rw [deliveries_append_other (.inr (by simp))]
      exact underway.delivered

/-- Every question is a step, -/
theorem Underway.step (question : FeedAsk) : Underway fetch decode bound valid start
    (seen ++ [((feed fetch decode bound).ask question holding).1])
    ((feed fetch decode bound).ask question holding).2 := by
  cases question with
  | next => exact underway.next productive
  | get => exact underway.get
  | close => exact underway.close

end

/-- and so matters stand as they should after any number of them. -/
theorem Underway.run (productive : Productive decode fetch valid) (questions : List FeedAsk) :
    ∀ {seen holding}, Underway fetch decode bound valid start seen holding →
      Underway fetch decode bound valid start
        (seen ++ replies (feed fetch decode bound).ask questions holding)
        ((feed fetch decode bound).askAll questions holding) := by
  induction questions with
  | nil =>
    intro seen holding underway
    rw [replies, List.append_nil]
    exact underway
  | cons question rest ih =>
    intro seen holding underway
    have on := ih (underway.step productive question)
    rw [List.append_assoc] at on
    exact on

end Underway

/-! ## What holders can rely on -/

section Contract

variable {σ μ δ : Type} {fetch : μ → σ → Except (Fault δ) (Page μ δ) × σ}
  {decode : δ → Except StoreError Post} {bound : μ → σ → Nat} {valid : μ → Prop}

/-- What is seen of a question tells which it was. -/
theorem ask_eq_next {holding : Holding σ (Cursor μ δ)} {question : FeedAsk} {more : Bool}
    (seen : .next more = ((feed fetch decode bound).ask question holding).1) :
    question = .next := by
  cases question with
  | next => rfl
  | get => cases seen
  | close => cases seen

theorem ask_eq_get {holding : Holding σ (Cursor μ δ)} {question : FeedAsk}
    {result : Except StoreError Unit} {place : Post}
    (seen : .get result place = ((feed fetch decode bound).ask question holding).1) :
    question = .get := by
  cases question with
  | next => cases seen
  | get => rfl
  | close => cases seen

/-- What waits is not delivered as misuse. -/
theorem Fit.deliver_ne_misuse {cursor : Cursor μ δ} (fit : cursor.Fit valid)
    (productive : Productive decode fetch valid) {element : Except StoreError δ}
    (waits : cursor.current = some element) : deliver decode element ≠ .error .misuse := by
  intro same
  cases element with
  | error e => exact fit.regular e waits (Except.error.inj same)
  | ok element => exact productive.element element _ same rfl

/-- What an attempt to take an element gives is what the last advance has reached. -/
theorem Underway.taken (productive : Productive decode fetch valid)
    {start holding : Holding σ (Cursor μ δ)} {seen : List Seen}
    (standing : Underway fetch decode bound valid start seen holding)
    {result : Except StoreError Unit} {place : Post}
    (here : .get result place = ((feed fetch decode bound).ask .get holding).1) :
    (result = .error .misuse ↔ ¬ Waits seen) ∧
      (Waits seen → ∃ earlier,
        (feed fetch decode bound).loop (seen.countP Seen.reaches) start.cursor start.state =
          earlier ++ [Seen.delivery result place]) := by
  cases waiting : holding.cursor.current with
  | none =>
    obtain ⟨rfl, -⟩ := Seen.get.inj (here.trans (congrArg Prod.fst (ask_get_misuse waiting)))
    have none_waits := fun waits => standing.waits.1 waits waiting
    exact ⟨⟨fun _ => none_waits, fun _ => rfl⟩, fun waits => absurd waits none_waits⟩
  | some element =>
    have waits := standing.waits.2 (by simp [waiting])
    obtain ⟨result', place', asked, delivered, -⟩ := ask_get fetch decode bound waiting
    obtain ⟨rfl, rfl⟩ := Seen.get.inj (here.trans (congrArg Prod.fst asked))
    obtain ⟨earlier, order, -⟩ := standing.order
    rw [waiting] at order
    refine ⟨⟨?_, fun idle => absurd waits idle⟩, fun _ => ⟨earlier, ?_⟩⟩
    · rintro rfl
      exact absurd delivered.symm (standing.fit.deliver_ne_misuse productive waiting)
    · rw [order, delivered]
      rfl

/-- An attempt that fails leaves the place as it was. -/
theorem Underway.untouched {start holding : Holding σ (Cursor μ δ)} {seen : List Seen}
    (standing : Underway fetch decode bound valid start seen holding) {e : StoreError}
    {place : Post}
    (here : .get (.error e) place = ((feed fetch decode bound).ask .get holding).1) :
    place = placeAfter start.place seen := by
  rw [← standing.place]
  cases waiting : holding.cursor.current with
  | none => exact (Seen.get.inj (here.trans (congrArg Prod.fst (ask_get_misuse waiting)))).2
  | some element =>
    obtain ⟨result', place', asked, -, kept⟩ := ask_get fetch decode bound waiting
    obtain ⟨rfl, rfl⟩ := Seen.get.inj (here.trans (congrArg Prod.fst asked))
    exact kept e rfl

/-- When nothing more can be fetched, advances reach what has been fetched at most. -/
theorem countP_reaches_le (questions : List FeedAsk) :
    ∀ holding : Holding σ (Cursor μ δ), holding.cursor.mark = none →
      (replies (feed fetch decode bound).ask questions holding).countP Seen.reaches ≤
        holding.cursor.buffer.length := by
  induction questions with
  | nil => exact fun _ _ => Nat.zero_le _
  | cons question rest ih =>
    rintro ⟨⟨mark, buffer, current, closed⟩, place, state⟩ rfl
    rw [replies, List.countP_cons]
    cases question with
    | close => exact Nat.le_trans (ih ⟨⟨none, [], none, true⟩, place, state⟩ rfl) (Nat.zero_le _)
    | get =>
      cases current with
      | none =>
        rw [ask_get_misuse rfl]
        exact ih ⟨⟨none, buffer, none, closed⟩, place, state⟩ rfl
      | some element =>
        obtain ⟨result, place', asked, -, -⟩ := ask_get fetch decode bound
          (rfl : (⟨⟨none, buffer, some element, closed⟩, place, state⟩ :
            Holding σ (Cursor μ δ)).cursor.current = some element)
        rw [asked]
        exact ih ⟨⟨none, buffer, none, closed⟩, place', state⟩ rfl
    | next =>
      cases closed with
      | true => exact ih ⟨⟨none, buffer, current, true⟩, place, state⟩ rfl
      | false =>
        cases buffer with
        | nil => exact ih ⟨⟨none, [], none, false⟩, place, state⟩ rfl
        | cons element buffer =>
          have onward := ih ⟨⟨none, buffer, some (.ok element), false⟩, place, state⟩ rfl
          exact Nat.succ_le_succ onward

/-- A fetch that fails is delivered as its failure, and then what it had got is left. -/
theorem replies_of_failed (productive : Productive decode fetch valid)
    {holding : Holding σ (Cursor μ δ)} {mark : μ} {fault : Fault δ} {state' : σ}
    (ready : holding.cursor.due = some mark)
    (failed : fetch mark holding.state = (.error fault, state')) (later : List FeedAsk) :
    ∃ seen, replies (feed fetch decode bound).ask (.next :: .get :: later) holding =
        .next true :: .get (.error fault.error) holding.place :: seen ∧
      seen.countP Seen.reaches ≤ fault.got.length ∧
      (deliveries seen).Sublist (fault.got.map decode) := by
  obtain ⟨opened, empty, marked⟩ : holding.cursor.closed = false ∧ holding.cursor.buffer = [] ∧
      holding.cursor.mark = some mark := by
    unfold due at ready
    split at ready
    · rename_i here
      exact ⟨here.1, here.2, ready⟩
    · cases ready
  have reached : Cursor.next fetch holding.cursor holding.state = (true,
      { holding.cursor with
        mark := none, buffer := fault.got, current := some (.error fault.error) }, state') := by
    simp [Cursor.next, opened, empty, marked, failed]
  let left : Holding σ (Cursor μ δ) :=
    ⟨{ holding.cursor with mark := none, buffer := fault.got, current := none }, holding.place,
      state'⟩
  refine ⟨replies (feed fetch decode bound).ask later left, ?_, countP_reaches_le later left rfl,
    ?_⟩
  · rw [replies, ask_next reached]
    rfl
  · have fit : left.cursor.Fit valid := ⟨by simp [left], fun _ => rfl, by simp [left]⟩
    have start : Underway fetch decode bound valid left [] left := underway_start fit rfl
    have delivered := (start.run productive later).delivered
    have own : Heeds (fun mark s result s' => fetch mark s = (result, s')) fetch :=
      fun _ _ _ _ got => got
    rw [loop_eq own productive _ left.cursor left.state [] fit.marks opened .nothing,
      List.append_nil] at delivered
    exact delivered.trans (List.take_sublist _ _)

/-- **Cursors keep the contract** from any mark of a kind whose pages but the last have
elements, when they fetch what the medium answers. -/
theorem keepsContract {answers : μ → σ → Except (Fault δ) (Page μ δ) → σ → Prop}
    (heeds : Heeds answers fetch) (productive : Productive decode fetch valid)
    {cursor : Cursor μ δ} (state : σ) (marks : ∀ mark ∈ cursor.mark, valid mark)
    (opened : cursor.closed = false) (idle : cursor.current = none) :
    KeepsContract answers decode (feed fetch decode bound) cursor state := by
  have fit : cursor.Fit valid := ⟨marks, fun _ => idle, by simp [idle]⟩
  have underway : ∀ questions place, Underway fetch decode bound valid ⟨cursor, place, state⟩
      (replies (feed fetch decode bound).ask questions ⟨cursor, place, state⟩)
      ((feed fetch decode bound).askAll questions ⟨cursor, place, state⟩) := by
    intro questions place
    have start : Underway fetch decode bound valid ⟨cursor, place, state⟩ []
        ⟨cursor, place, state⟩ := underway_start fit idle
    exact start.run productive questions
  constructor
  · intro questions place before result place' after seen
    obtain ⟨early, question, rfl, here⟩ := replies_split before seen
    obtain rfl := ask_eq_get here
    exact (underway early place).taken productive here
  · intro questions place before e place' after seen
    obtain ⟨early, question, rfl, here⟩ := replies_split before seen
    obtain rfl := ask_eq_get here
    exact (underway early place).untouched here
  · intro questions place before more after seen past
    obtain ⟨early, question, rfl, here⟩ := replies_split before seen
    obtain rfl := ask_eq_next here
    have spent := (underway early place).spent past
    exact (Seen.next.inj here).trans (spent.next fetch _).1
  · intro questions place mark fault state' later holding ready answered
    exact replies_of_failed productive ready (heeds _ _ _ _ answered) later
  · intro questions place
    refine (underway questions place).delivered.trans (Feed.loop_le ?_ cursor state)
    exact le_of_le_of_eq List.countP_le_length (length_replies questions _)
  · exact fun count contents => loop_eq heeds productive count cursor state contents marks opened

end Contract

end Cursor

end PostStore
