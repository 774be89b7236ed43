import Mathlib.Data.List.Nodup
import Mathlib.Data.List.Count
import PostStore.Proofs.Healthy
import PostStore.Store.Cursor
/-!
# Listings page by page while others write

A listing is read step by step while others make calls of the same store.  The reader takes an
element after each advance that reaches one.  When the pages of the store give what it holds for the
user at the time, each behind the last, the listing is orderly: it gives no post twice, each as it
was stored when its page was fetched, and once it has ended it has given every post that was there
all the time.
-/

namespace PostStore

/-- Whether an advance would fetch a page. -/
def Cursor.fetches {μ δ : Type} (cursor : Cursor μ δ) : Bool :=
  !cursor.closed && cursor.buffer.isEmpty && cursor.mark.isSome

/-- Whether an advance has reached a failure. -/
def Cursor.broken {μ δ : Type} (cursor : Cursor μ δ) : Bool :=
  match cursor.current with
  | some (.error _) => true
  | _ => false

section Broken

variable {σ μ δ : Type}

/-- Moving on within what has been fetched reaches no failure. -/
theorem Cursor.broken_advance (cursor : Cursor μ δ) : cursor.advance.2.broken = false := by
  unfold Cursor.advance
  split <;> rfl

/-- When the fetch gives a page, an advance reaches no failure. -/
theorem Cursor.broken_next {fetch : μ → σ → Except (Cursor.Fault δ) (Cursor.Page μ δ) × σ} {s : σ}
    (gives : ∀ mark, ∃ page, (fetch mark s).1 = .ok page) {cursor : Cursor μ δ}
    (whole : cursor.broken = false) : (Cursor.next fetch cursor s).2.1.broken = false := by
  unfold Cursor.next
  split
  · exact whole
  · split
    · rename_i mark _ _
      obtain ⟨page, given⟩ := gives mark
      split <;> rename_i fetched
      · rw [fetched] at given
        cases given
      · exact Cursor.broken_advance _
    · exact Cursor.broken_advance _

/-- When an element has been taken, no failure stands in its place. -/
theorem Cursor.broken_get (decode : δ → Except StoreError Post) (cursor : Cursor μ δ) :
    (Cursor.get decode cursor).2.broken = false := by
  unfold Cursor.get
  split
  · rename_i nothing
    rw [Cursor.broken, nothing]
  · rfl
  · rfl

end Broken

namespace Paging

/-! ## Chronicles -/

/-- Who takes a turn: the reader of the listing, or someone who makes a call. -/
inductive Turn where
  | read
  | call (call : Call)

/-- A listing that is being read, with what has come of it and the media since it was opened. -/
structure Chronicle (σ μ δ : Type) where
  cursor : Cursor μ δ
  state : σ
  past : List σ
  /-- Whether an advance has reached an element that has not been taken yet. -/
  waiting : Bool := false
  /-- Whether an advance has reached nothing. -/
  ended : Bool := false
  /-- Whether a fetch has failed. -/
  failed : Bool := false
  /-- The medium at the time of the last fetch. -/
  page : Option σ := none
  /-- What the reader has got, each with the medium when its page was fetched. -/
  taken : List (Except StoreError Post × Option σ) := []

namespace Chronicle

section Running

variable {σ μ δ : Type} (store : Store σ (Cursor μ δ))

/-- A listing that has just been opened. -/
def start (cursor : Cursor μ δ) (state : σ) : Chronicle σ μ δ :=
  { cursor := cursor, state := state, past := [state] }

/-- The reader takes the element that an advance has reached. -/
def take (c : Chronicle σ μ δ) : Chronicle σ μ δ :=
  { c with
    cursor := (store.feed.get c.cursor).2
    waiting := false
    taken := c.taken ++ [((store.feed.get c.cursor).1, c.page)] }

/-- The reader advances. -/
def advance (c : Chronicle σ μ δ) : Chronicle σ μ δ :=
  let (more, cursor, state) := store.feed.next c.cursor c.state
  { c with
    cursor := cursor
    state := state
    past := state :: c.past
    waiting := more
    ended := c.ended || !more
    failed := c.failed || cursor.broken
    page := if c.cursor.fetches then some c.state else c.page }

/-- A turn.  The reader advances when there is nothing to take. -/
def turn (c : Chronicle σ μ δ) : Turn → Chronicle σ μ δ
  | .read => if c.waiting then c.take store else c.advance store
  | .call call =>
    let state := (store.serve call c.state).2
    { c with state := state, past := state :: c.past }

/-- Some turns, one after the other. -/
def run (c : Chronicle σ μ δ) : List Turn → Chronicle σ μ δ
  | [] => c
  | turn :: turns => (c.turn store turn).run turns

/-- The posts that the reader has got. -/
def posts (c : Chronicle σ μ δ) : List Post := c.taken.filterMap fun entry => entry.1.toOption

/-- The identifiers of the posts that the reader has got. -/
def ids (c : Chronicle σ μ δ) : List String := c.posts.map Post.id

end Running

/-- What the reader has got, with a medium, is a post of the user that was stored there, and the
medium is one that has been. -/
def Sourced {σ : Type} (held : σ → Catalogue) (user : String) (past : List σ)
    (entry : Except StoreError Post × Option σ) : Prop :=
  ∃ post state, entry = (.ok post, some state) ∧ state ∈ past ∧ post.user = user ∧
    held state user post.id = some post

theorem Sourced.mono {σ : Type} {held : σ → Catalogue} {user : String} {past past' : List σ}
    {entry : Except StoreError Post × Option σ} (sourced : Sourced held user past entry)
    (more : past ⊆ past') : Sourced held user past' entry := by
  obtain ⟨post, state, eq, since, own⟩ := sourced
  exact ⟨post, state, eq, more since, own⟩

/-- A listing of a user's posts is orderly: the reader gets only posts of the user that were stored
when their page was fetched, no post twice, and, once an advance has reached nothing, has got every
post exactly once that was stored all the time since the listing was opened. -/
structure Orderly {σ μ δ : Type} (held : σ → Catalogue) (user : String) (c : Chronicle σ μ δ) :
    Prop where
  sourced : ∀ entry ∈ c.taken, Sourced held user c.past entry
  once : c.ids.Nodup
  complete : c.ended = true → ∀ id, (∀ state ∈ c.past, held state user id ≠ none) →
    c.ids.count id = 1

end Chronicle

/-! ## What is asked of the pages -/

/-- Posts of one user under different keys have different identifiers. -/
theorem nodup_ids {κ : Type} (key : String → String → κ) {user : String} {posts : List Post}
    (own : ∀ post ∈ posts, post.user = user)
    (keys : (posts.map fun post => key post.user post.id).Nodup) :
    (posts.map Post.id).Nodup := by
  have tagged : (posts.map fun post => key post.user post.id) =
      (posts.map Post.id).map (key user) := by
    rw [List.map_map]
    refine List.map_congr_left fun post member => ?_
    rw [own post member]
    rfl
  rw [tagged] at keys
  exact List.Nodup.of_map _ keys

section Contract

variable {σ μ δ : Type} (fetch : μ → σ → Except (Cursor.Fault δ) (Cursor.Page μ δ) × σ)
  (decode : δ → Except StoreError Post)

/-- The pages of the listings of a user.  In a sound medium a page that is fetched holds posts of
the user that the mark faces, none twice; what else the mark faces of the user's is faced by the
mark behind the page, which faces nothing of the page itself.  Only a last page can be empty. -/
structure Paged (user : String) (sound : σ → Prop) (held : σ → Catalogue) (fit : μ → Prop)
    (faces : μ → String → Prop) : Prop where
  page : ∀ mark s page next s', fit mark → sound s → fetch mark s = (.ok (page, next), s') →
    ∃ posts : List Post, page.map decode = posts.map .ok ∧ (posts.map Post.id).Nodup ∧
      (∀ post ∈ posts, post.user = user ∧ held s user post.id = some post ∧ faces mark post.id) ∧
      (∀ id, held s user id ≠ none → faces mark id →
        id ∈ posts.map Post.id ∨ ∃ mark' ∈ next, faces mark' id) ∧
      ∀ mark' ∈ next, fit mark' ∧ page ≠ [] ∧
        ∀ id, faces mark' id → faces mark id ∧ id ∉ posts.map Post.id

end Contract

/-! ## A listing underway -/

namespace Chronicle

section Underway

variable {σ μ δ : Type} {store : Store σ (Cursor μ δ)}
  {fetch : μ → σ → Except (Cursor.Fault δ) (Cursor.Page μ δ) × σ}
  {decode : δ → Except StoreError Post} {bound : μ → σ → Nat} {user : String}
  {sound : σ → Prop} {held : σ → Catalogue}
  {fit : μ → Prop} {faces : μ → String → Prop} {c : Chronicle σ μ δ}

/-- The elements that have been fetched but not taken yet. -/
def coming (c : Chronicle σ μ δ) : List (Except StoreError δ) :=
  (if c.waiting then c.cursor.current.toList else []) ++ c.cursor.buffer.map .ok

/-- Where a listing stands with some posts to come: every post that was there all the time has been
taken, is to come, or is faced by the mark, and the mark faces nothing that was taken or is to
come. -/
structure Underway (decode : δ → Except StoreError Post) (user : String) (held : σ → Catalogue)
    (fit : μ → Prop) (faces : μ → String → Prop) (c : Chronicle σ μ δ) (waits : List Post) :
    Prop where
  isOpen : c.cursor.closed = false
  lit : c.waiting = true → c.cursor.current ≠ none
  here : c.state ∈ c.past
  decoded : c.coming.map (fun element => element.bind decode) = waits.map .ok
  sourced : ∀ entry ∈ c.taken, Sourced held user c.past entry
  source : ∀ post ∈ waits, Sourced held user c.past (.ok post, c.page)
  once : (c.ids ++ waits.map Post.id).Nodup
  ahead : ∀ mark ∈ c.cursor.mark, fit mark ∧
    ∀ id, faces mark id → id ∉ c.ids ++ waits.map Post.id
  complete : ∀ id, (∀ state ∈ c.past, held state user id ≠ none) →
    id ∈ c.ids ++ waits.map Post.id ∨ ∃ mark ∈ c.cursor.mark, faces mark id
  finished : c.ended = true → waits = [] ∧ c.cursor.mark = none

/-- A listing begins with a mark that faces every post of the user. -/
theorem underway_start {mark : μ} {state : σ} (first : fit mark)
    (all : ∀ id, held state user id ≠ none → faces mark id) :
    Underway decode user held fit faces
      (start { mark := some mark } state : Chronicle σ μ δ) [] := by
  constructor
  case isOpen => rfl
  case lit => exact fun waiting => Bool.noConfusion waiting
  case here => exact List.mem_singleton_self state
  case decoded => rfl
  case sourced => exact fun _ member => nomatch member
  case source => exact fun _ member => nomatch member
  case once => exact List.nodup_nil
  case ahead =>
    intro mark' same
    obtain rfl := Option.some.inj same
    exact ⟨first, fun _ _ => List.not_mem_nil⟩
  case complete =>
    intro id always
    exact .inr ⟨mark, rfl, all id (always state (List.mem_singleton_self state))⟩
  case finished => exact fun ended => Bool.noConfusion ended

variable {waits : List Post}

/-- A call changes nothing for the reader. -/
theorem Underway.call (underway : Underway decode user held fit faces c waits) (call : Call) :
    Underway decode user held fit faces (c.turn store (.call call)) waits where
  isOpen := underway.isOpen
  lit := underway.lit
  here := List.mem_cons_self
  decoded := underway.decoded
  sourced entry member := (underway.sourced entry member).mono (List.subset_cons_self _ _)
  source post member := (underway.source post member).mono (List.subset_cons_self _ _)
  once := underway.once
  ahead := underway.ahead
  complete id always := underway.complete id fun state since =>
    always state (List.mem_cons_of_mem _ since)
  finished := underway.finished

/-- The element that was reached is taken as the first of the posts to come. -/
theorem Underway.take (underway : Underway decode user held fit faces c waits)
    (feeds : store.feed = Cursor.feed fetch decode bound) (waiting : c.waiting = true) :
    ∃ rest, Underway decode user held fit faces (c.take store) rest := by
  obtain ⟨element, reached⟩ := Option.ne_none_iff_exists'.1 (underway.lit waiting)
  have decoded := underway.decoded
  rw [coming, if_pos waiting, reached, Option.toList_some, List.singleton_append,
    List.map_cons] at decoded
  cases waits with
  | nil => cases decoded
  | cons post rest =>
    obtain ⟨first, others⟩ := List.cons.inj decoded
    cases element with
    | error e => cases first
    | ok element =>
      have given : store.feed.get c.cursor = (.ok post, { c.cursor with current := none }) := by
        rw [feeds]
        show Cursor.get decode c.cursor = _
        rw [Cursor.get, reached]
        exact congrArg (·, _) first
      have ids : (c.take store).ids = c.ids ++ [post.id] := by
        simp only [Chronicle.take, Chronicle.ids, posts, given, List.filterMap_append,
          List.map_append]
        rfl
      -- the identifier moves from those to come to those taken, so all of them stay the same
      have split : (c.take store).ids ++ rest.map Post.id =
          c.ids ++ (post :: rest).map Post.id := by
        rw [ids, List.append_assoc, List.singleton_append, List.map_cons]
      refine ⟨rest, ?_⟩
      constructor
      case isOpen => simpa only [Chronicle.take, given] using underway.isOpen
      case lit => exact nofun
      case here => exact underway.here
      case decoded =>
        simp only [Chronicle.take, given, coming, Bool.false_eq_true, if_false, List.nil_append]
        exact others
      case sourced =>
        intro entry member
        rcases List.mem_append.1 member with earlier | last
        · exact underway.sourced entry earlier
        · rw [List.mem_singleton.1 last, given]
          exact underway.source post List.mem_cons_self
      case source => exact fun other member => underway.source other (List.mem_cons_of_mem _ member)
      case once => exact split ▸ underway.once
      case ahead =>
        rw [split]
        simpa only [Chronicle.take, given] using underway.ahead
      case complete =>
        rw [split]
        simpa only [Chronicle.take, given] using underway.complete
      case finished =>
        intro ended
        exact absurd (underway.finished ended).1 (List.cons_ne_nil post rest)

/-- The reader moves on within what has been fetched. -/
def reach (c : Chronicle σ μ δ) : Chronicle σ μ δ :=
  { c with
    cursor := c.cursor.advance.2
    waiting := c.cursor.advance.1
    ended := c.ended || !c.cursor.advance.1
    failed := c.failed || c.cursor.advance.2.broken }

/-- The medium is looked at, and the cursor has what was fetched. -/
def refill (c : Chronicle σ μ δ) (cursor : Cursor μ δ) (state : σ) : Chronicle σ μ δ :=
  { c with
    cursor := cursor
    state := state
    past := state :: c.past
    page := if c.cursor.fetches then some c.state else c.page }

/-- The reader advances by looking at the medium and moving on. -/
theorem advance_eq {cursor : Cursor μ δ} {state : σ}
    (step : store.feed.next c.cursor c.state = (cursor.advance.1, cursor.advance.2, state)) :
    c.advance store = (c.refill cursor state).reach := by
  rw [Chronicle.advance, step]
  rfl

/-- Moving on reaches the first of the posts to come; when there are none, there are none ahead. -/
theorem Underway.reach (underway : Underway decode user held fit faces c waits)
    (idle : c.waiting = false) (last : c.cursor.buffer = [] → c.cursor.mark = none) :
    Underway decode user held fit faces c.reach waits := by
  have coming : c.coming = c.cursor.buffer.map .ok := by
    rw [Chronicle.coming, idle]
    rfl
  have marked : c.reach.cursor.mark = c.cursor.mark := by
    unfold Chronicle.reach Cursor.advance
    split <;> rfl
  constructor
  case isOpen =>
    rw [← underway.isOpen]
    unfold Chronicle.reach Cursor.advance
    split <;> rfl
  case lit =>
    intro waiting
    unfold Chronicle.reach Cursor.advance at waiting ⊢
    split at waiting
    · cases waiting
    · simp
  case here => exact underway.here
  case decoded =>
    -- the first of the buffer becomes the element that waits, and both stand for the same post
    have same : c.reach.coming = c.coming := by
      rw [coming]
      unfold Chronicle.coming Chronicle.reach Cursor.advance
      split
      · rename_i nothing
        simp [nothing]
      · rename_i element rest some
        simp [some]
    rw [same]
    exact underway.decoded
  case sourced => exact underway.sourced
  case source => exact underway.source
  case once => exact underway.once
  case ahead =>
    rw [marked]
    exact underway.ahead
  case complete =>
    rw [marked]
    exact underway.complete
  case finished =>
    intro ended
    rw [marked]
    rcases Bool.or_eq_true_iff.1 ended with before | nothing
    · exact underway.finished before
    · have empty : c.cursor.buffer = [] := by
        unfold Cursor.advance at nothing
        split at nothing
        · assumption
        · cases nothing
      have decoded := underway.decoded
      rw [coming, empty] at decoded
      exact ⟨List.map_eq_nil_iff.1 decoded.symm, last empty⟩

/-- Looking at the medium without fetching changes nothing. -/
theorem Underway.refill_self (underway : Underway decode user held fit faces c waits)
    (kept : c.cursor.fetches = false) :
    Underway decode user held fit faces (c.refill c.cursor c.state) waits where
  isOpen := underway.isOpen
  lit := underway.lit
  here := List.mem_cons_self
  decoded := underway.decoded
  sourced entry member := (underway.sourced entry member).mono (List.subset_cons_self _ _)
  source post member := by
    rw [refill, kept]
    exact (underway.source post member).mono (List.subset_cons_self _ _)
  once := underway.once
  ahead := underway.ahead
  complete id always := underway.complete id fun state since =>
    always state (List.mem_cons_of_mem _ since)
  finished := underway.finished

/-- A page that is fetched when nothing is to come has its posts to come. -/
theorem Underway.refill_page (underway : Underway decode user held fit faces c [])
    (paged : Paged fetch decode user sound held fit faces) (good : sound c.state)
    (idle : c.waiting = false) (fetches : c.cursor.fetches = true) {mark : μ}
    (marked : c.cursor.mark = some mark) {page : List δ} {next : Option μ} {state : σ}
    (got : fetch mark c.state = (.ok (page, next), state)) :
    (page = [] → next = none) ∧ ∃ posts, Underway decode user held fit faces
      (c.refill { c.cursor with mark := next, buffer := page } state) posts := by
  obtain ⟨fits, faced⟩ := underway.ahead mark marked
  obtain ⟨posts, decoded, once, own, all, onward⟩ :=
    paged.page mark c.state page next state fits good got
  rw [List.map_nil, List.append_nil] at faced
  constructor
  · intro empty
    cases next with
    | none => rfl
    | some mark' => exact absurd empty (onward mark' rfl).2.1
  refine ⟨posts, ?_⟩
  constructor
  case isOpen => exact underway.isOpen
  case lit => exact fun waiting => absurd waiting (by rw [refill, idle]; exact Bool.false_ne_true)
  case here => exact List.mem_cons_self
  case decoded =>
    rw [coming, refill, idle, ← decoded]
    simp [Except.bind, Function.comp_def]
  case sourced =>
    exact fun entry member => (underway.sourced entry member).mono (List.subset_cons_self _ _)
  case source =>
    intro post member
    refine ⟨post, c.state, ?_, List.mem_cons_of_mem _ underway.here, (own post member).1,
      (own post member).2.1⟩
    rw [refill, fetches]
    rfl
  case once =>
    -- what the mark faces has not been taken yet
    have before := underway.once
    rw [List.map_nil, List.append_nil] at before
    refine List.nodup_append.2 ⟨before, once, ?_⟩
    rintro id old id' new rfl
    obtain ⟨post, member, rfl⟩ := List.mem_map.1 new
    exact faced post.id (own post member).2.2 old
  case ahead =>
    intro mark' here
    obtain ⟨fits', _, beyond⟩ := onward mark' here
    refine ⟨fits', fun id facing => ?_⟩
    rw [List.mem_append]
    rintro (old | new)
    · exact faced id (beyond id facing).1 old
    · exact (beyond id facing).2 new
  case complete =>
    intro id always
    have before := underway.complete id fun state since =>
      always state (List.mem_cons_of_mem _ since)
    rw [List.map_nil, List.append_nil] at before
    rcases before with old | ⟨mark', here, facing⟩
    · exact .inl (List.mem_append_left _ old)
    · rw [marked] at here
      obtain rfl := Option.some.inj here
      -- a post that was there all the time was there when this page was fetched
      have stored := always c.state (List.mem_cons_of_mem _ underway.here)
      exact (all id stored facing).imp (fun new => List.mem_append_right _ new) (fun more => more)
  case finished =>
    intro ended
    rw [(underway.finished ended).2] at marked
    cases marked

/-- An advance keeps the listing underway, unless a fetch fails. -/
theorem Underway.advance (underway : Underway decode user held fit faces c waits)
    (paged : Paged fetch decode user sound held fit faces) (good : sound c.state)
    (feeds : store.feed = Cursor.feed fetch decode bound) (idle : c.waiting = false)
    (calm : (c.advance store).failed = false) :
    ∃ posts, Underway decode user held fit faces (c.advance store) posts := by
  have next : store.feed.next c.cursor c.state = Cursor.next fetch c.cursor c.state := by
    rw [feeds]
    rfl
  have notClosed : ¬ c.cursor.closed = true := by
    rw [underway.isOpen]
    exact Bool.false_ne_true
  rw [Cursor.next, if_neg notClosed] at next
  split at next
  · rename_i mark empty marked
    have fetches : c.cursor.fetches = true := by
      simp [Cursor.fetches, underway.isOpen, empty, marked]
    -- nothing that was fetched is left, so there are no posts to come
    have nothing : waits = [] := by
      have decoded := underway.decoded
      rw [coming, idle, empty] at decoded
      exact List.map_eq_nil_iff.1 decoded.symm
    subst nothing
    split at next
    · rw [Chronicle.advance, next] at calm
      simp [Cursor.broken] at calm
    · rename_i page mark' state got
      obtain ⟨last, posts, after⟩ := underway.refill_page paged good idle fetches marked got
      rw [advance_eq next]
      exact ⟨posts, after.reach idle last⟩
  · rename_i fetched
    have kept : c.cursor.fetches = false := by
      rw [Bool.eq_false_iff]
      intro fetches
      simp only [Cursor.fetches, Bool.and_eq_true, List.isEmpty_iff, Option.isSome_iff_exists]
        at fetches
      obtain ⟨⟨_, empty⟩, mark, marked⟩ := fetches
      exact fetched mark empty marked
    have last : c.cursor.buffer = [] → c.cursor.mark = none := by
      intro empty
      cases marked : c.cursor.mark with
      | none => rfl
      | some mark => exact absurd marked (fetched mark empty)
    rw [advance_eq next]
    exact ⟨waits, (underway.refill_self kept).reach idle last⟩

/-! ## Runs -/

/-- What has been is not forgotten. -/
theorem past_subset_turn (c : Chronicle σ μ δ) (turn : Turn) :
    c.past ⊆ (c.turn store turn).past := by
  intro state since
  cases turn with
  | call call => exact List.mem_cons_of_mem _ since
  | read =>
    rw [Chronicle.turn]
    split
    · exact since
    · exact List.mem_cons_of_mem _ since

theorem past_subset_run (turns : List Turn) :
    ∀ c : Chronicle σ μ δ, c.past ⊆ (c.run store turns).past := by
  induction turns with
  | nil => exact fun c => List.Subset.refl _
  | cons turn turns ih => exact fun c => List.Subset.trans (c.past_subset_turn turn) (ih _)

/-- A medium that is sound stays so throughout a run in which calls and advances keep it sound. -/
theorem past_run {scope : Call → Prop}
    (serves : ∀ call s, scope call → sound s → sound (store.serve call s).2)
    (advances : ∀ cursor s, sound s → sound (store.feed.next cursor s).2.2) (turns : List Turn) :
    ∀ {c : Chronicle σ μ δ}, (∀ call, .call call ∈ turns → scope call) → sound c.state →
      (∀ state ∈ c.past, sound state) → ∀ state ∈ (c.run store turns).past, sound state := by
  induction turns with
  | nil => exact fun _ _ good => good
  | cons turn turns ih =>
    intro c known here good
    have known' : ∀ call, .call call ∈ turns → scope call := fun call later =>
      known call (List.mem_cons_of_mem _ later)
    -- a turn adds at most the medium that it leaves behind
    have step : sound (c.turn store turn).state ∧
        ∀ state ∈ (c.turn store turn).past, sound state := by
      cases turn with
      | call call =>
        have after := serves call c.state (known call List.mem_cons_self) here
        exact ⟨after, List.forall_mem_cons.2 ⟨after, good⟩⟩
      | read =>
        rw [Chronicle.turn]
        split
        · exact ⟨here, good⟩
        · have after := advances c.cursor c.state here
          exact ⟨after, List.forall_mem_cons.2 ⟨after, good⟩⟩
    exact ih known' step.1 step.2

/-- A fetch that has failed stays so. -/
theorem failed_turn (c : Chronicle σ μ δ) (turn : Turn) (failed : c.failed = true) :
    (c.turn store turn).failed = true := by
  cases turn with
  | call call => exact failed
  | read =>
    rw [Chronicle.turn]
    split
    · exact failed
    · simp [Chronicle.advance, failed]

theorem failed_run (turns : List Turn) :
    ∀ c : Chronicle σ μ δ, c.failed = true → (c.run store turns).failed = true := by
  induction turns with
  | nil => exact fun _ failed => failed
  | cons turn turns ih => exact fun c failed => ih _ (c.failed_turn turn failed)

/-- When every fetch of a sound medium gives a page, no run fails in which calls and advances keep
the medium sound. -/
theorem calm_run {scope : Call → Prop} (feeds : store.feed = Cursor.feed fetch decode bound)
    (serves : ∀ call s, scope call → sound s → sound (store.serve call s).2)
    (advances : ∀ cursor s, sound s → sound (store.feed.next cursor s).2.2)
    (gives : ∀ mark s, sound s → ∃ page, (fetch mark s).1 = .ok page) (turns : List Turn) :
    ∀ {c : Chronicle σ μ δ}, (∀ call, .call call ∈ turns → scope call) → sound c.state →
      c.cursor.broken = false → c.failed = false → (c.run store turns).failed = false := by
  induction turns with
  | nil => exact fun _ _ _ calm => calm
  | cons turn turns ih =>
    intro c known here whole calm
    have known' : ∀ call, .call call ∈ turns → scope call := fun call later =>
      known call (List.mem_cons_of_mem _ later)
    cases turn with
    | call call =>
      have after := serves call c.state (known call List.mem_cons_self) here
      exact ih known' after whole calm
    | read =>
      rw [Chronicle.run, Chronicle.turn]
      split
      · have taken : (c.take store).cursor.broken = false := by
          simp only [Chronicle.take, feeds]
          exact Cursor.broken_get decode c.cursor
        exact ih known' here taken calm
      · have reached : (c.advance store).cursor.broken = false := by
          simp only [Chronicle.advance, feeds]
          exact Cursor.broken_next (gives · c.state here) whole
        have still : (c.advance store).failed = false := by
          simp only [Chronicle.advance] at reached ⊢
          rw [calm, reached]
          rfl
        exact ih known' (advances c.cursor c.state here) reached still

/-- A turn keeps the listing underway, unless a fetch fails. -/
theorem Underway.turn (underway : Underway decode user held fit faces c waits)
    (paged : Paged fetch decode user sound held fit faces) (good : sound c.state)
    (feeds : store.feed = Cursor.feed fetch decode bound) (turn : Turn)
    (calm : (c.turn store turn).failed = false) :
    ∃ posts, Underway decode user held fit faces (c.turn store turn) posts := by
  cases turn with
  | call call => exact ⟨waits, underway.call call⟩
  | read =>
    rw [Chronicle.turn] at calm ⊢
    split at calm
    · rename_i waiting
      rw [if_pos waiting]
      exact underway.take feeds waiting
    · rename_i idle
      rw [if_neg idle]
      exact underway.advance paged good feeds (Bool.not_eq_true _ ▸ idle) calm

/-- A run keeps the listing underway, unless a fetch fails. -/
theorem Underway.run (paged : Paged fetch decode user sound held fit faces)
    (feeds : store.feed = Cursor.feed fetch decode bound) (turns : List Turn) :
    ∀ {c : Chronicle σ μ δ} {waits : List Post}, Underway decode user held fit faces c waits →
      (∀ state ∈ (c.run store turns).past, sound state) → (c.run store turns).failed = false →
      ∃ posts, Underway decode user held fit faces (c.run store turns) posts := by
  induction turns with
  | nil => exact fun underway _ _ => ⟨_, underway⟩
  | cons turn turns ih =>
    intro c waits underway good calm
    have here : c.state ∈ (c.run store (turn :: turns)).past :=
      past_subset_run (turn :: turns) c underway.here
    have calm' : (c.turn store turn).failed = false := by
      rw [Bool.eq_false_iff]
      intro failed
      rw [Chronicle.run, failed_run turns _ failed] at calm
      cases calm
    obtain ⟨posts, after⟩ := underway.turn paged (good _ here) feeds turn calm'
    exact ih after good calm

/-- A listing that is underway is orderly. -/
theorem Underway.orderly (underway : Underway decode user held fit faces c waits) :
    Orderly held user c where
  sourced := underway.sourced
  once := (List.nodup_append.1 underway.once).1
  complete ended id always := by
    obtain ⟨rfl, none⟩ := underway.finished ended
    have member := underway.complete id always
    rw [none, List.map_nil, List.append_nil] at member
    have got : id ∈ c.ids := member.resolve_right fun ⟨mark, here, _⟩ => nomatch here
    exact List.count_eq_one_of_mem (List.nodup_append.1 underway.once).1 got

/-- **Whatever calls are made in between, a listing in pages is orderly**, as long as no fetch fails
and the medium stays sound. -/
theorem orderly_run (paged : Paged fetch decode user sound held fit faces)
    (feeds : store.feed = Cursor.feed fetch decode bound) {mark : μ} {state : σ} (first : fit mark)
    (all : ∀ id, held state user id ≠ none → faces mark id) (turns : List Turn)
    (good : ∀ state' ∈ ((start { mark := some mark } state).run store turns).past, sound state')
    (calm : ((start { mark := some mark } state).run store turns).failed = false) :
    Orderly held user ((start { mark := some mark } state).run store turns) := by
  obtain ⟨posts, underway⟩ := Underway.run paged feeds turns (underway_start first all) good calm
  exact underway.orderly

end Underway

end Chronicle

end Paging

end PostStore
