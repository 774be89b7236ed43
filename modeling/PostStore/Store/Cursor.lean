import PostStore.Store.Feed
/-!
# Cursors

The one way in which all feeds advance.  A cursor holds the elements already fetched, the element
that an advance has reached, and a mark from which more can be fetched, until there is none.  A
failed fetch is an element of its own: advancing reaches it, and taking it gives the failure.  What
the fetch had got before it failed comes after it, and nothing more is fetched.
-/

namespace PostStore

/-- A place in a feed of elements in `δ`, with marks in `μ`. -/
structure Cursor (μ δ : Type) where
  mark : Option μ
  buffer : List δ := []
  current : Option (Except StoreError δ) := none
  closed : Bool := false

namespace Cursor

variable {σ μ δ : Type}

/-- Some elements, and the mark from which to go on. -/
abbrev Page (μ δ : Type) := List δ × Option μ

/-- Why a fetch failed, and the elements that it had got before. -/
structure Fault (δ : Type) where
  error : StoreError
  got : List δ := []

/-- A fetch that gets a whole page at once, or nothing. -/
def atOnce (fetch : μ → σ → Except StoreError (Page μ δ) × σ) (mark : μ) (state : σ) :
    Except (Fault δ) (Page μ δ) × σ :=
  (fetch mark state).map (·.mapError fun e => { error := e }) id

section AtOnce

variable {fetch : μ → σ → Except StoreError (Page μ δ) × σ} {mark : μ} {state state' : σ}

@[simp]
theorem atOnce_eq_ok {page : Page μ δ} :
    atOnce fetch mark state = (.ok page, state') ↔ fetch mark state = (.ok page, state') := by
  unfold atOnce
  rcases fetch mark state with ⟨e | page', after⟩
  · exact iff_of_false nofun nofun
  · show ((.ok page', after) : Except (Fault δ) (Page μ δ) × σ) = _ ↔ _
    simp only [Prod.mk.injEq, Except.ok.injEq]

/-- When the fetch fails, nothing has been got. -/
theorem atOnce_of_error {e : StoreError} (failed : fetch mark state = (.error e, state')) :
    atOnce fetch mark state = (.error { error := e }, state') := by
  rw [atOnce, failed]
  rfl

end AtOnce

/-- Reaches the next element fetched, if there is one. -/
def advance (cursor : Cursor μ δ) : Bool × Cursor μ δ :=
  match cursor.buffer with
  | [] => (false, { cursor with current := none })
  | element :: rest => (true, { cursor with buffer := rest, current := some (.ok element) })

/-- Advances; fetches when nothing fetched is left. -/
def next (fetch : μ → σ → Except (Fault δ) (Page μ δ) × σ) (cursor : Cursor μ δ) (state : σ) :
    Bool × Cursor μ δ × σ :=
  if cursor.closed then (false, cursor, state)
  else
    match cursor.buffer, cursor.mark with
    | [], some mark =>
      match fetch mark state with
      | (.error fault, state) =>
        (true,
          { cursor with mark := none, buffer := fault.got, current := some (.error fault.error) },
          state)
      | (.ok (page, mark), state) =>
        let (more, cursor) := advance { cursor with mark := mark, buffer := page }
        (more, cursor, state)
    | _, _ =>
      let (more, cursor) := cursor.advance
      (more, cursor, state)

/-- Takes the element reached. -/
def get (decode : δ → Except StoreError Post) (cursor : Cursor μ δ) :
    Except StoreError Post × Cursor μ δ :=
  match cursor.current with
  | none => (.error .misuse, cursor)
  | some (.error e) => (.error e, { cursor with current := none })
  | some (.ok element) => (decode element, { cursor with current := none })

/-- Gives up the rest. -/
def close (cursor : Cursor μ δ) : Cursor μ δ :=
  { cursor with buffer := [], current := none, closed := true }

/-- The feed whose pages are fetched and whose elements are decoded as given; from a mark, at most
`bound` more elements can be fetched. -/
def feed (fetch : μ → σ → Except (Fault δ) (Page μ δ) × σ) (decode : δ → Except StoreError Post)
    (bound : μ → σ → Nat) : Feed σ (Cursor μ δ) where
  next := next fetch
  get := get decode
  close := close
  pending cursor state :=
    cursor.buffer.length + match cursor.mark with
      | none => 0
      | some mark => bound mark state + 1

end Cursor

/-! ## Snapshots -/

/-- A cursor over posts that were all taken at once: there is nothing left to fetch. -/
abbrev Snapshot := Cursor Empty Post

namespace Snapshot

/-- A snapshot of some posts. -/
def ofList (posts : List Post) : Snapshot := { mark := none, buffer := posts }

/-- Snapshots as feeds over any medium. -/
def feed {σ : Type} : Feed σ Snapshot := Cursor.feed (fun mark _ => mark.elim) .ok (fun _ _ => 0)

end Snapshot

end PostStore
