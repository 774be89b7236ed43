import PostStore.Dialogue
import PostStore.Error
import PostStore.Post.Basic
/-!
# Feeds

A feed enumerates posts one by one, forward only and once: `next` advances and says whether there is
an element, `get` takes that element or the failure that stands in its place, `close` gives up the
rest.  `collect` drains a feed and closes it on every path.
-/

namespace PostStore

/-! ## Asking a feed -/

/-- What a feed can be asked. -/
inductive FeedAsk where
  | next
  | get
  | close
  deriving DecidableEq, Repr

/-- What a feed replies. -/
abbrev FeedAsk.Reply : FeedAsk → Type
  | .next => Bool
  | .get => Except StoreError Post
  | .close => Unit

/-- Takes elements until there is none or one fails, advancing at most `limit` times. -/
def drain (got : List Post) :
    (limit : Nat) → Dialogue FeedAsk FeedAsk.Reply (Except StoreError (List Post))
  | 0 => .done (.ok got.reverse)
  | limit + 1 => .ask .next fun more =>
    match more with
    | false => .done (.ok got.reverse)
    | true => .ask .get fun element =>
      match element with
      | .ok post => drain (post :: got) limit
      | .error e => .done (.error e)

/-- All elements of a feed that advances fewer than `limit` times, or the first failure; the feed is
closed at the end. -/
def collect (limit : Nat) : Dialogue FeedAsk FeedAsk.Reply (Except StoreError (List Post)) :=
  (drain [] limit).bind fun result => .ask .close fun _ => .done result

/-! ## Feeds over a medium -/

/-- Feeds with cursors in `κ` over a medium with states in `σ`.  Only advancing looks at the medium.
A cursor advances at most `pending` times more. -/
structure Feed (σ κ : Type) where
  next : κ → σ → Bool × κ × σ
  get : κ → Except StoreError Post × κ
  close : κ → κ
  pending : κ → σ → Nat

namespace Feed

variable {σ κ : Type}

/-- Serves what a feed can be asked. -/
def serve (feed : Feed σ κ) : (question : FeedAsk) → κ × σ → question.Reply × (κ × σ)
  | .next, (cursor, state) => feed.next cursor state
  | .get, (cursor, state) =>
    let (element, cursor) := feed.get cursor
    (element, cursor, state)
  | .close, (cursor, state) => ((), feed.close cursor, state)

/-- Takes an element into a place of the caller's.  The place is left as it is when there is no
element or the element fails. -/
def getInto (feed : Feed σ κ) (cursor : κ) (place : Post) : Except StoreError Unit × Post × κ :=
  match feed.get cursor with
  | (.ok post, cursor) => (.ok (), post, cursor)
  | (.error e, cursor) => (.error e, place, cursor)

/-- Drains a feed and closes it. -/
def collect (feed : Feed σ κ) (cursor : κ) (state : σ) :
    Except StoreError (List Post) × (κ × σ) :=
  (PostStore.collect (feed.pending cursor state + 1)).run feed.serve (cursor, state)

end Feed

end PostStore
