import PostStore.Store.Feed
/-!
# Stores

The calls that a store answers, and what a store is: a name, a way to serve calls that changes the
state of its medium, and the feeds it hands out.
-/

namespace PostStore

/-- A call of a store.  What would come from outside, an unused identifier and the reading of the
clock, is part of the call. -/
inductive Call where
  | create (user data : String) (fresh : Fresh)
  | read (user id : String)
  | readAll (user : String)
  | update (user id data : String) (clock : ClockReading)
  | delete (user id : String)
  deriving DecidableEq

/-- What a call gives when it succeeds; a listing gives a cursor in `κ`. -/
abbrev Call.Result (κ : Type) : Call → Type
  | .create .. => Post
  | .read .. => Post
  | .readAll _ => κ
  | .update .. => Post
  | .delete .. => Unit

/-- The answer to a call. -/
abbrev Call.Answer (κ : Type) (call : Call) : Type := Except StoreError (call.Result κ)

/-- A failure as the answer to a call. -/
def Call.fail {κ : Type} (call : Call) (error : StoreError) : call.Answer κ := .error error

/-- Stores over media with states in `σ` and with cursors in `κ`. -/
structure Store (σ κ : Type) where
  name : String
  serve : (call : Call) → σ → call.Answer κ × σ
  feed : Feed σ κ

/-! ## Part of a larger medium -/

/-- A medium with states in `σ` as a part of a larger one with states in `ω`. -/
structure Part (ω σ : Type) where
  get : ω → σ
  set : σ → ω → ω

namespace Part

/-- The first of two media. -/
def first {σ τ : Type} : Part (σ × τ) σ := ⟨Prod.fst, fun s w => (s, w.2)⟩

/-- The second of two media. -/
def second {σ τ : Type} : Part (σ × τ) τ := ⟨Prod.snd, fun t w => (w.1, t)⟩

/-- Lets a step on the part change the whole. -/
def lift {ω σ α : Type} (part : Part ω σ) (step : σ → α × σ) (whole : ω) : α × ω :=
  let (value, state) := step (part.get whole)
  (value, part.set state whole)

end Part

/-- A store over a part of a larger medium. -/
def Store.within {ω σ κ : Type} (store : Store σ κ) (part : Part ω σ) : Store ω κ where
  name := store.name
  serve call := part.lift (store.serve call)
  feed :=
    { next := fun cursor whole =>
        let (more, cursor, state) := store.feed.next cursor (part.get whole)
        (more, cursor, part.set state whole)
      get := store.feed.get
      close := store.feed.close
      pending := fun cursor whole => store.feed.pending cursor (part.get whole) }

end PostStore
