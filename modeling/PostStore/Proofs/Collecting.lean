import Mathlib.Data.List.Chain
import Mathlib.Data.Set.Finite.Basic
import PostStore.Proofs.Transcripts
import PostStore.Store.Scripted
/-!
# Collecting the elements of an iterator

Whoever serves the questions of a feed is an iterator.  A plain loop goes through it in rounds: it
advances, and takes what the advance has reached.  When only finitely many advances reach anything,
collecting comes to an end: it takes an element after each advance that reached one, up to the first
that fails, and closes the iterator, once, when all else is done.
-/

namespace PostStore

/-- A question to an iterator, with the reply. -/
abbrev FeedExchange : Type := Σ question : FeedAsk, question.Reply

namespace Iterator

/-! ## Rounds -/

section Rounds

variable {σ : Type} (serve : (question : FeedAsk) → σ → question.Reply × σ)

/-- The state after a round. -/
def round (s : σ) : σ := (serve .get (serve .next s).2).2

/-- Whether the advance of a round reaches an element, when so many rounds came before it. -/
def reaches (s : σ) (rounds : Nat) : Bool := (serve .next ((round serve)^[rounds] s)).1

/-- How an iterator ends for whoever takes its elements up to the first that fails: an advance
reaches nothing, or an element fails. -/
inductive Ending where
  | exhausted
  | failed (e : StoreError)

/-- Taken one by one from a state on, the elements of an iterator are the given posts, and then it
comes to the given end. -/
inductive Yields : σ → List Post → Ending → Prop where
  | exhausted {s : σ} (nothing : (serve .next s).1 = false) : Yields s [] .exhausted
  | failed {s : σ} {e : StoreError} (reached : (serve .next s).1 = true)
      (broken : (serve .get (serve .next s).2).1 = .error e) : Yields s [] (.failed e)
  | post {s : σ} {post : Post} {posts : List Post} {ending : Ending}
      (reached : (serve .next s).1 = true)
      (delivered : (serve .get (serve .next s).2).1 = .ok post)
      (rest : Yields (round serve s) posts ending) : Yields s (post :: posts) ending

/-- An iterator whose advance reaches nothing in some round comes to an end. -/
theorem exists_yields (last : Nat) : ∀ s, reaches serve s last = false →
    ∃ posts ending, Yields serve s posts ending := by
  induction last with
  | zero => exact fun s nothing => ⟨[], .exhausted, .exhausted nothing⟩
  | succ last ih =>
    intro s nothing
    cases reached : (serve .next s).1 with
    | false => exact ⟨[], .exhausted, .exhausted reached⟩
    | true =>
      cases got : (serve .get (serve .next s).2).1 with
      | error e => exact ⟨[], .failed e, .failed reached got⟩
      | ok post =>
        obtain ⟨posts, ending, rest⟩ := ih (round serve s) nothing
        exact ⟨post :: posts, ending, .post reached got rest⟩

end Rounds

/-! ## What is asked -/

/-- An advance that has reached an element. -/
abbrev reached : FeedExchange := ⟨.next, true⟩

/-- Giving up the rest. -/
abbrev closing : FeedExchange := ⟨.close, ()⟩

/-- What is asked to take some posts, one by one. -/
def takings (posts : List Post) : List FeedExchange :=
  posts.flatMap fun post => [reached, ⟨.get, .ok post⟩]

/-- What is asked at the end of an iterator. -/
def Ending.exchanges : Ending → List FeedExchange
  | exhausted => [⟨.next, false⟩]
  | failed e => [reached, ⟨.get, .error e⟩]

/-- What comes of collecting, when some posts came before the end. -/
def Ending.result (posts : List Post) : Ending → Except StoreError (List Post)
  | exhausted => .ok posts
  | failed e => .error e

/-- Of two exchanges in a row the second takes an element just when the first has reached one. -/
def Takes (first second : FeedExchange) : Prop := second.1 = .get ↔ first = reached

/-- An iterator is asked as it should be: the first question is an advance; each advance that
reached an element is followed by taking that element, and nothing is taken otherwise; and closing
the iterator is the last thing done, and is done once. -/
structure Orderly (asked : List FeedExchange) : Prop where
  starts : ∀ first ∈ asked.head?, first.1 = .next
  takes : asked.IsChain Takes
  closes : ∃ before, asked = before ++ [closing] ∧ ∀ exchange ∈ before, exchange.1 ≠ .close

theorem takings_cons (post : Post) (posts : List Post) :
    takings (post :: posts) = reached :: ⟨.get, .ok post⟩ :: takings posts := rfl

theorem starts_takings (posts : List Post) (ending : Ending) :
    ∀ first ∈ (takings posts ++ ending.exchanges ++ [closing]).head?, first.1 = .next := by
  cases posts <;> cases ending <;> simp [takings, Ending.exchanges]

/-- Taking posts, coming to the end and closing is in order. -/
theorem orderly (posts : List Post) (ending : Ending) :
    Orderly (takings posts ++ ending.exchanges ++ [closing]) := by
  constructor
  · exact starts_takings posts ending
  · induction posts with
    | nil => cases ending <;> simp [takings, Ending.exchanges, Takes]
    | cons post posts ih =>
      rw [takings_cons, List.cons_append, List.cons_append, List.cons_append, List.cons_append,
        List.isChain_cons_cons, List.isChain_cons]
      refine ⟨by simp [Takes], fun first member => ?_, ih⟩
      simp [Takes, starts_takings posts ending first member]
  · refine ⟨_, rfl, fun exchange member => ?_⟩
    rcases List.mem_append.1 member with taken | ended
    · obtain ⟨post, -, here⟩ := List.mem_flatMap.1 taken
      rcases List.mem_pair.1 here with rfl | rfl <;> simp
    · cases ending with
      | exhausted => simp [List.mem_singleton.1 ended]
      | failed e => rcases List.mem_pair.1 ended with rfl | rfl <;> simp

/-! ## Collecting -/

section Collecting

variable {σ : Type} {serve : (question : FeedAsk) → σ → question.Reply × σ} {s : σ}
  {posts : List Post} {ending : Ending}

/-- Draining takes the posts and comes to the end, behind the posts it already has. -/
theorem Yields.drain (yields : Yields serve s posts ending) :
    ∀ (got : List Post) {limit : Nat}, posts.length < limit →
      (drain got limit).transcript serve s = takings posts ++ ending.exchanges ∧
        ((drain got limit).run serve s).1 = ending.result (got.reverse ++ posts) := by
  induction yields with
  | exhausted nothing =>
    intro got limit enough
    obtain ⟨limit, rfl⟩ := Nat.exists_eq_succ_of_ne_zero (Nat.ne_of_gt enough)
    simp [PostStore.drain, Dialogue.transcript, Dialogue.run, nothing, takings, Ending.exchanges,
      Ending.result]
  | failed reached broken =>
    intro got limit enough
    obtain ⟨limit, rfl⟩ := Nat.exists_eq_succ_of_ne_zero (Nat.ne_of_gt enough)
    simp [PostStore.drain, Dialogue.transcript, Dialogue.run, reached, broken, takings,
      Ending.exchanges, Ending.result]
  | @post s post posts ending reached delivered rest ih =>
    intro got limit enough
    obtain ⟨limit, rfl⟩ := Nat.exists_eq_succ_of_ne_zero (Nat.ne_of_gt (Nat.zero_lt_of_lt enough))
    obtain ⟨asked, result⟩ := ih (post :: got) (Nat.lt_of_succ_lt_succ enough)
    rw [List.reverse_cons, List.append_assoc] at result
    simp only [PostStore.drain, Dialogue.transcript, Dialogue.run, reached, delivered]
    refine ⟨?_, result⟩
    rw [takings_cons, List.cons_append, List.cons_append, ← asked]
    rfl

/-- Collecting does the same, and then closes the iterator. -/
theorem Yields.collect (yields : Yields serve s posts ending) {limit : Nat}
    (enough : posts.length < limit) :
    (collect limit).transcript serve s = takings posts ++ ending.exchanges ++ [closing] ∧
      ((collect limit).run serve s).1 = ending.result posts := by
  obtain ⟨asked, result⟩ := yields.drain [] enough
  unfold PostStore.collect
  rw [Dialogue.transcript_bind, Dialogue.run_bind, asked]
  exact ⟨rfl, result⟩

end Collecting

end Iterator

/-! ## Scripts -/

namespace ScriptedFeed

/-- A script is played once: an advance reaches an element just as long as there is one. -/
theorem reaches_iff (rounds : Nat) : ∀ feed : ScriptedFeed,
    Iterator.reaches serve feed rounds = true ↔ rounds < feed.rest.length := by
  induction rounds with
  | zero =>
    rintro ⟨_ | ⟨element, rest⟩, current, nexts, closes⟩ <;> simp [Iterator.reaches, serve]
  | succ rounds ih =>
    intro feed
    have shorter : (Iterator.round serve feed).rest = feed.rest.tail := by
      obtain ⟨_ | ⟨element, rest⟩, current, nexts, closes⟩ := feed <;> rfl
    refine (ih (Iterator.round serve feed)).trans ?_
    rw [shorter, List.length_tail]
    omega

theorem reaches_finitely (feed : ScriptedFeed) :
    {rounds | Iterator.reaches serve feed rounds = true}.Finite :=
  (Set.finite_lt_nat feed.rest.length).subset fun rounds => (reaches_iff rounds feed).1

end ScriptedFeed

/-! ## Draining and closing -/

namespace Iterator

/-- **Collecting drains an iterator and closes it.**  When the advances of finitely many rounds
reach an element, the iterator yields some posts and then comes to an end.  However large the limit,
as long as it leaves room for these posts, collecting takes just them, learns of the end, and closes
the iterator; what comes of it is all the posts, or the failure of the element that failed; and the
iterator is asked as it should be. -/
theorem collect_drains_and_closes {σ : Type}
    (serve : (question : FeedAsk) → σ → question.Reply × σ) (s : σ)
    (finitely : {rounds | reaches serve s rounds = true}.Finite) :
    ∃ posts ending, Yields serve s posts ending ∧ ∀ limit, posts.length < limit →
      let asked := (collect limit).transcript serve s
      asked = takings posts ++ ending.exchanges ++ [closing] ∧
        ((collect limit).run serve s).1 = ending.result posts ∧ Orderly asked := by
  obtain ⟨last, missing⟩ := finitely.exists_notMem
  obtain ⟨posts, ending, yields⟩ := exists_yields serve last s (Bool.eq_false_iff.2 missing)
  refine ⟨posts, ending, yields, fun limit enough => ?_⟩
  obtain ⟨asked, result⟩ := yields.collect enough
  refine ⟨asked, result, ?_⟩
  rw [asked]
  exact orderly posts ending

/-- A script whose second element fails, and which would go on: the post before that element is
taken, the third element is not asked for, and the script is closed once. -/
theorem collect_drains_and_closes_torn :
    let post := Post.make "a" "tea" ⟨"1", .epoch⟩
    let torn := StoreError.decode "test" "bad bytes"
    let script : List (Except StoreError Post) := [.ok post, .error torn, .ok post]
    let start : ScriptedFeed := { rest := script }
    {rounds | reaches ScriptedFeed.serve start rounds = true}.Finite ∧
      (∃ posts ending, Yields ScriptedFeed.serve start posts ending ∧
        ∀ limit, posts.length < limit →
        let asked := (collect limit).transcript ScriptedFeed.serve start
        asked = takings posts ++ ending.exchanges ++ [closing] ∧
          ((collect limit).run ScriptedFeed.serve start).1 = ending.result posts ∧
            Orderly asked) ∧
      (collect 4).transcript ScriptedFeed.serve start =
        [reached, ⟨.get, .ok post⟩, reached, ⟨.get, .error torn⟩, closing] ∧
      (ScriptedFeed.collect script).1 = .error torn ∧
      (ScriptedFeed.collect script).2.closes = 1 := by
  intro post torn script start
  refine ⟨ScriptedFeed.reaches_finitely start, ?_, rfl, rfl, rfl⟩
  exact collect_drains_and_closes ScriptedFeed.serve start (ScriptedFeed.reaches_finitely start)

end Iterator

end PostStore
