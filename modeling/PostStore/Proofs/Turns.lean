import PostStore.Proofs.Interleaving
/-!
# The question of a turn

A turn has one question of one session answered, or none.  The medium changes as the question has it
change, the session goes one step further and the others stay where they are.  So of the calls that
a history makes of the store it can be told in which state each is made.
-/

namespace PostStore

namespace Coordinator

variable {σ τ κ : Type} {store : Store σ κ} {cache : Cache τ} {session : Session κ}

/-- A call that is made of the store is the one that the session handles. -/
theorem Stage.of_store {made : String → Post → Prop} {found : String → String → Post → Prop}
    (stage : Stage made found session) {call : Call}
    (asks : session.question? = some (.store call)) : session.call = call := by
  cases stage with
  | begun begun =>
    cases begun with
    | create user data fresh =>
      rw [perform_create] at asks
      cases asks
      rfl
    | read user id =>
      rw [perform_read] at asks
      cases asks
    | readAll user =>
      cases asks
      rfl
    | update user id data clock =>
      rw [perform_update] at asks
      cases asks
      rfl
    | delete user id =>
      cases asks
      rfl
  | addingNew h => cases asks
  | missed =>
    rw [readThrough_eq] at asks
    cases asks
    rfl
  | addingFound h => cases asks
  | changed => cases asks
  | deleted => cases asks
  | answered h => cases asks

theorem Session.call_step (medium : σ × τ) :
    (session.step store cache medium).1.call = session.call := by
  obtain ⟨call, answer | ⟨question, next⟩⟩ := session <;> rfl

/-! ## Turns -/

namespace World

variable {world : World σ τ κ} {turn : Turn}

/-- The question that a turn has answered. -/
def asks? (world : World σ τ κ) : Turn → Option Ask
  | .begin _ => none
  | .step index => world.sessions[index]?.bind Session.question?

theorem asks?_step {index : Nat} (here : world.sessions[index]? = some session) :
    world.asks? (.step index) = session.question? := by
  rw [asks?, here, Option.bind_some]

theorem asks?_step_none {index : Nat} (nobody : world.sessions[index]? = none) :
    world.asks? (.step index) = none := by
  rw [asks?, nobody, Option.bind_none]

/-- The question of a turn is one of some session. -/
theorem exists_of_asks? {question : Ask} (asks : world.asks? turn = some question) :
    ∃ session ∈ world.sessions, session.question? = some question := by
  cases turn with
  | begin call => cases asks
  | step index =>
    obtain ⟨session, here, asks⟩ := Option.bind_eq_some_iff.1 asks
    exact ⟨session, List.mem_of_getElem? here, asks⟩

/-- A turn without a question leaves the medium as it is. -/
theorem turn_medium_of_none (silent : world.asks? turn = none) :
    (world.turn store cache turn).medium = world.medium := by
  cases turn with
  | begin call => rfl
  | step index =>
    cases here : world.sessions[index]? with
    | none => rw [turn_step_none here]
    | some session =>
      rw [asks?_step here] at silent
      rw [turn_step_some here, Session.step_of_ended silent]

/-- A turn changes the medium as the question does that it has answered. -/
theorem turn_medium_of_some {question : Ask} (asks : world.asks? turn = some question) :
    (world.turn store cache turn).medium =
      (serve (store.within .first) (cache.within .second) question world.medium).2 := by
  cases turn with
  | begin call => cases asks
  | step index =>
    cases here : world.sessions[index]? with
    | none => exact nomatch (asks?_step_none here).symm.trans asks
    | some session =>
      rw [asks?_step here] at asks
      rw [turn_step_some here]
      exact Session.step_medium asks

/-- What holds of the sessions, of a call that begins and of the session that takes a step holds of
the sessions after a turn. -/
theorem forall_sessions_turn {holds : Session κ → Prop}
    (old : ∀ session ∈ world.sessions, holds session)
    (begins : ∀ call, turn = .begin call → holds (.start call))
    (steps : ∀ session ∈ world.sessions, world.asks? turn = session.question? →
      holds (session.step store cache world.medium).1) :
    ∀ session ∈ (world.turn store cache turn).sessions, holds session := by
  intro session member
  cases turn with
  | begin call =>
    rcases List.mem_append.1 member with before | new
    · exact old session before
    · rw [List.mem_singleton.1 new]
      exact begins call rfl
  | step index =>
    cases here : world.sessions[index]? with
    | none =>
      rw [turn_step_none here] at member
      exact old session member
    | some before =>
      rw [turn_step_some here] at member
      rcases List.mem_or_eq_of_mem_set member with other | rfl
      · exact old session other
      · exact steps before (List.mem_of_getElem? here) (asks?_step here)

/-- The turns of others leave a session where it is. -/
theorem getElem?_sessions_turn {index : Nat}
    (here : world.sessions[index]? = some session) (others : turn ≠ .step index) :
    (world.turn store cache turn).sessions[index]? = some session := by
  cases turn with
  | begin call =>
    exact (List.getElem?_append_left (List.getElem?_eq_some_iff.1 here).1).trans here
  | step place =>
    cases there : world.sessions[place]? with
    | none => rwa [turn_step_none there]
    | some before =>
      rw [turn_step_some there]
      have apart : place ≠ index := fun same => others (congrArg Turn.step same)
      exact (List.getElem?_set_ne apart).trans here

/-- The own turn of a session takes it one step further. -/
theorem getElem?_sessions_step {index : Nat}
    (here : world.sessions[index]? = some session) :
    (world.turn store cache (.step index)).sessions[index]? =
      some (session.step store cache world.medium).1 := by
  rw [turn_step_some here]
  exact List.getElem?_set_self (List.getElem?_eq_some_iff.1 here).1

/-! ## Histories -/

/-- Whether every call that a history makes of the store is in its scope in the state it meets. -/
def InScope (store : Store σ κ) (cache : Cache τ) (scope : Call → σ → Prop) (world : World σ τ κ) :
    List Turn → Prop
  | [] => True
  | turn :: earlier => InScope store cache scope world earlier ∧
      ∀ call, (world.after store cache earlier).asks? turn = some (.store call) →
        scope call (world.after store cache earlier).medium.1

/-- A scope that excludes nothing has every history. -/
theorem inScope_true (store : Store σ κ) (cache : Cache τ) (world : World σ τ κ) :
    ∀ history, world.InScope store cache (fun _ _ => True) history
  | [] => trivial
  | _ :: earlier => ⟨inScope_true store cache world earlier, fun _ _ => trivial⟩

/-- The calls before some turns were in scope if those of the whole history were. -/
theorem InScope.of_append {scope : Call → σ → Prop} {later earlier : List Turn}
    (inScope : world.InScope store cache scope (later ++ earlier)) :
    world.InScope store cache scope earlier := by
  induction later with
  | nil => exact inScope
  | cons turn later ih => exact ih inScope.1

end World

end Coordinator

end PostStore
