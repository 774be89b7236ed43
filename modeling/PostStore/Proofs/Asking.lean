import PostStore.Proofs.Transparency
import PostStore.Store.Cursor
/-!
# Asking a feed

Whoever holds a cursor may advance it, take an element and give up the rest, in any order and as
often as they like.  What they see tells whether an element waits to be taken, which elements were
delivered, and what is in the place of an element.  A plain loop takes every element that it
reaches, until there is none.
-/

namespace PostStore

/-! ## Holding a cursor -/

/-- An element as it is delivered: a post, or the failure in its place. -/
abbrev Delivery := Except StoreError Post

/-- What is seen of a question to a feed: whether an advance reached an element; how an attempt to
take one ended and what is then in the place of whoever asked; nothing, when the rest is given
up. -/
inductive Seen where
  | next (more : Bool)
  | get (result : Except StoreError Unit) (place : Post)
  | close

/-- A cursor and a place for an element, and the state of the medium. -/
structure Holding (σ κ : Type) where
  cursor : κ
  place : Post
  state : σ

section Asking

variable {σ κ : Type} (feed : Feed σ κ)

/-- Asks a question. -/
def Feed.ask : FeedAsk → Holding σ κ → Seen × Holding σ κ
  | .next, holding =>
    let (more, cursor, state) := feed.next holding.cursor holding.state
    (.next more, { holding with cursor := cursor, state := state })
  | .get, holding =>
    let (result, place, cursor) := feed.getInto holding.cursor holding.place
    (.get result place, { holding with cursor := cursor, place := place })
  | .close, holding => (.close, { holding with cursor := feed.close holding.cursor })

/-- What is held after some questions. -/
def Feed.askAll (questions : List FeedAsk) (holding : Holding σ κ) : Holding σ κ :=
  questions.foldl (fun holding question => (feed.ask question holding).2) holding

/-- What a plain loop of at most `count` rounds has delivered: in each round it advances, and takes
the element unless there is none. -/
def Feed.loop : (count : Nat) → κ → σ → List Delivery
  | 0, _, _ => []
  | count + 1, cursor, state =>
    match feed.next cursor state with
    | (false, _, _) => []
    | (true, cursor, state) =>
      (feed.get cursor).1 :: Feed.loop count (feed.get cursor).2 state

variable {feed} {cursor cursor' : κ} {state state' : σ}

theorem Feed.loop_false (reached : feed.next cursor state = (false, cursor', state'))
    (count : Nat) : feed.loop count cursor state = [] := by
  cases count with
  | zero => rfl
  | succ count => rw [Feed.loop, reached]

theorem Feed.loop_true (reached : feed.next cursor state = (true, cursor', state'))
    (count : Nat) : feed.loop (count + 1) cursor state =
      (feed.get cursor').1 :: feed.loop count (feed.get cursor').2 state' := by
  rw [Feed.loop, reached]

/-- With more rounds the loop delivers the same, and then perhaps more. -/
theorem Feed.loop_le {few more : Nat} (le : few ≤ more) : ∀ (cursor : κ) (state : σ),
    (feed.loop few cursor state).Sublist (feed.loop more cursor state) := by
  induction few generalizing more with
  | zero => exact fun _ _ => List.nil_sublist _
  | succ few ih =>
    intro cursor state
    obtain ⟨more, rfl⟩ := Nat.exists_eq_succ_of_ne_zero (Nat.ne_of_gt (Nat.zero_lt_of_lt le))
    rcases reached : feed.next cursor state with ⟨_ | _, cursor', state'⟩
    · rw [Feed.loop_false reached]
      exact List.nil_sublist _
    · rw [Feed.loop_true reached, Feed.loop_true reached]
      exact (ih (Nat.le_of_succ_le_succ le) _ _).cons_cons _

end Asking

/-- A reply is that to one of the requests, after those before it. -/
theorem replies_split {ι ω β : Type} {serve : ι → ω → β × ω} {reply : β} {after : List β}
    (before : List β) : ∀ {requests : List ι} {state : ω},
      replies serve requests state = before ++ reply :: after →
        ∃ early request, before = replies serve early state ∧
          reply = (serve request (early.foldl (fun state r => (serve r state).2) state)).1 := by
  induction before with
  | nil =>
    intro requests state split
    cases requests with
    | nil => cases split
    | cons request rest =>
      obtain ⟨here, -⟩ := List.cons.inj split
      exact ⟨[], request, rfl, here.symm⟩
  | cons first before ih =>
    intro requests state split
    cases requests with
    | nil => cases split
    | cons request rest =>
      obtain ⟨rfl, others⟩ := List.cons.inj split
      obtain ⟨early, request', rfl, here⟩ := ih others
      exact ⟨request :: early, request', rfl, here⟩

theorem length_replies {ι ω β : Type} {serve : ι → ω → β × ω} (requests : List ι) :
    ∀ state, (replies serve requests state).length = requests.length := by
  induction requests with
  | nil => exact fun _ => rfl
  | cons request rest ih => exact fun state => congrArg (· + 1) (ih _)

/-! ## What has been seen -/

namespace Seen

/-- Whether something seen is an advance that reached an element. -/
def reaches : Seen → Bool
  | .next true => true
  | _ => false

/-- What an attempt to take an element has delivered. -/
def delivery (result : Except StoreError Unit) (place : Post) : Delivery :=
  result.map fun _ => place

end Seen

/-- An element waits to be taken when the last thing seen is an advance that reached it. -/
def Waits (seen : List Seen) : Prop := seen.getLast? = some (.next true)

/-- What is in the place after some questions: what the last attempt to take an element left. -/
def placeAfter (place : Post) (seen : List Seen) : Post :=
  seen.foldl (fun place s => match s with
    | .get _ place => place
    | _ => place) place

/-- The elements that were delivered: those taken right after the advance that reached them. -/
def deliveries : List Seen → List Delivery
  | .next true :: .get result place :: rest => Seen.delivery result place :: deliveries rest
  | _ :: rest => deliveries rest
  | [] => []

section Seen

variable {seen : List Seen} {s : Seen}

theorem waits_append_singleton : Waits (seen ++ [s]) ↔ s = .next true := by
  simp [Waits]

theorem waits_cons_cons {s' : Seen} : Waits (s :: s' :: seen) ↔ Waits (s' :: seen) := by
  simp [Waits]

theorem placeAfter_append (place : Post) (seen seen' : List Seen) :
    placeAfter place (seen ++ seen') = placeAfter (placeAfter place seen) seen' := by
  simp [placeAfter]

theorem deliveries_singleton (s : Seen) : deliveries [s] = [] := by
  rcases s with more | ⟨result, place⟩ | _
  · cases more <;> simp [deliveries]
  · simp [deliveries]
  · simp [deliveries]

/-- What comes first decides nothing about what follows, unless it is the advance before it. -/
theorem deliveries_cons {s' : Seen}
    (other : s = .next true → ∀ result place, s' ≠ .get result place) :
    deliveries (s :: s' :: seen) = deliveries (s' :: seen) := by
  rw [deliveries]
  intro result place rest reached taken
  obtain ⟨rfl, -⟩ := List.cons.inj taken
  exact other reached result place rfl

/-- An attempt to take an element that waits delivers it, -/
theorem deliveries_append_get (result : Except StoreError Unit) (place : Post)
    (waits : Waits seen) :
    deliveries (seen ++ [.get result place]) =
      deliveries seen ++ [Seen.delivery result place] := by
  fun_induction deliveries seen with
  | case1 result' place' rest ih =>
    rw [List.cons_append, List.cons_append, deliveries, List.cons_append]
    cases rest with
    | nil => simp [Waits] at waits
    | cons s rest => rw [ih (waits_cons_cons.1 (waits_cons_cons.1 waits))]
  | case2 s rest other ih =>
    cases rest with
    | nil =>
      obtain rfl : s = .next true := by simpa [Waits] using waits
      rfl
    | cons s' rest =>
      have apart : s = .next true → ∀ result place, s' ≠ .get result place := by
        rintro reached result place rfl
        exact other result place rest reached rfl
      have step := ih (waits_cons_cons.1 waits)
      rw [List.cons_append] at step
      rw [List.cons_append, List.cons_append, deliveries_cons apart, step]
  | case3 => simp [Waits] at waits

/-- and nothing else that is seen delivers anything. -/
theorem deliveries_append_other (idle : ¬ Waits seen ∨ ∀ result place, s ≠ .get result place) :
    deliveries (seen ++ [s]) = deliveries seen := by
  fun_induction deliveries seen with
  | case1 result' place' rest ih =>
    rw [List.cons_append, List.cons_append, deliveries]
    cases rest with
    | nil => rw [ih (.inl (by simp [Waits]))]
    | cons s' rest =>
      rw [waits_cons_cons, waits_cons_cons] at idle
      rw [ih idle]
  | case2 s' rest other ih =>
    cases rest with
    | nil =>
      have apart : s' = .next true → ∀ result place, s ≠ .get result place := by
        intro reached result place taken
        rcases idle with nothing | notTaken
        · exact nothing (by simp [Waits, reached])
        · exact notTaken result place taken
      rw [List.cons_append, List.nil_append, deliveries_cons apart, deliveries_singleton]
      rfl
    | cons s'' rest =>
      have apart : s' = .next true → ∀ result place, s'' ≠ .get result place := by
        rintro reached result place rfl
        exact other result place rest reached rfl
      rw [waits_cons_cons] at idle
      have step := ih idle
      rw [List.cons_append] at step
      rw [List.cons_append, List.cons_append, deliveries_cons apart, step]
  | case3 => exact deliveries_singleton s

end Seen

end PostStore
