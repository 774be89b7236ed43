import PostStore.Proofs.Json.Scalars
/-!
# Values are passed over exactly

The stack of open frames stands for what the grammar still asks for: the rest of each frame, the
innermost first.  If a run over the stack succeeds, then what it has passed over is a value and
those rests.  Conversely a value is passed over whatever frames are open around it, and then the run
goes on as it would behind any other value.
-/

namespace PostStore.Json

open Grammar

/-! ## Names -/

theorem skipColon_eq_ok {t t' : Bytes} : skipColon t = .ok t' ↔ Space t (58 :: t') := by
  constructor
  · intro skip
    unfold skipColon at skip
    split at skip
    · cases skip
    · rename_i eq
      split_ifs at skip with colon
      cases skip
      rw [colon] at eq
      exact space_of_skipSpace eq
  · intro space
    have here := space.skipSpace_eq_cons (by decide)
    simp only [skipColon, here, if_true]

theorem skipName_eq_ok {t t' : Bytes} :
    skipName t = .ok t' ↔ ∃ t1 t2, Space t (34 :: t1) ∧ Passed t1 t2 ∧ Space t2 (58 :: t') := by
  constructor
  · intro skip
    unfold skipName at skip
    split at skip
    · cases skip
    · rename_i eq
      split_ifs at skip with quote
      rw [quote] at eq
      split at skip
      · cases skip
      · rename_i string
        exact ⟨_, _, space_of_skipSpace eq, skipString_eq_ok.1 string, skipColon_eq_ok.1 skip⟩
  · rintro ⟨t1, t2, space, string, colon⟩
    have here := space.skipSpace_eq_cons (by decide)
    simp only [skipName, here, if_true, skipString_eq_ok.2 string]
    exact skipColon_eq_ok.2 colon

/-! ## What is passed over is a value -/

/-- What the frames that are open around a value still hold behind it. -/
inductive Closes : List Frame → Bytes → Bytes → Prop
  | nil {t} : Closes [] t t
  | cons {frame frames t t1 t'} : Derives Passed (.rest frame) t t1 → Closes frames t1 t' →
      Closes (frame :: frames) t t'

/-- What is left to do when some frames are open: a value and the rests of the frames, or nothing
when there are none. -/
def Continues : List Frame → Bytes → Bytes → Prop
  | [], t, t' => t = t'
  | frame :: frames, t, t' => ∃ t1, Derives Passed .value t t1 ∧ Closes (frame :: frames) t1 t'

theorem element_of_toValue {frame : Frame} {t t1 t' : Bytes} (reach : frame.toValue t = .ok t1)
    (value : Derives Passed .value t1 t') : Derives Passed (.element frame) t t' := by
  cases frame with
  | list =>
    cases reach
    exact .item value
  | object =>
    obtain ⟨t2, t3, quote, string, colon⟩ := skipName_eq_ok.1 reach
    exact .member quote string colon value

theorem closes_of_closeFrames {frames left : List Frame} {t t1 t' : Bytes}
    (close : closeFrames frames t = .ok (left, t1)) (continues : Continues left t1 t') :
    Closes frames t t' := by
  induction frames generalizing t with
  | nil =>
    cases close
    cases continues
    exact .nil
  | cons frame frames ih =>
    rw [closeFrames] at close
    split at close
    · cases close
    · rename_i b rest eq
      split_ifs at close with comma closer
      · subst comma
        split at close
        · cases close
        · rename_i reach
          cases close
          obtain ⟨t2, value, closes⟩ := continues
          cases closes with
          | cons behind outer =>
            have element := element_of_toValue reach value
            exact .cons (.more (space_of_skipSpace eq) element behind) outer
      · subst closer
        exact .cons (.close (space_of_skipSpace eq)) (ih close)

theorem value_of_openFrame {frame : Frame} {frames left : List Frame} {t0 t t1 t' : Bytes}
    (opens : Space t0 (opener frame :: t)) (run : openFrame frame frames t = .ok (left, t1))
    (continues : Continues left t1 t') :
    ∃ t2, Derives Passed .value t0 t2 ∧ Closes frames t2 t' := by
  unfold openFrame at run
  split at run
  · cases run
  · rename_i b rest eq
    split_ifs at run with closer
    · subst closer
      exact ⟨rest, .empty opens (space_of_skipSpace eq), closes_of_closeFrames run continues⟩
    · split at run
      · cases run
      · rename_i reach
        cases run
        obtain ⟨t2, value, closes⟩ := continues
        cases closes with
        | cons behind outer =>
          have element := (element_of_toValue reach value).spaced (space_of_skipSpace eq)
          exact ⟨_, .full opens element behind, outer⟩

theorem value_of_skipScalar {b : UInt8} {t rest t' : Bytes} (space : Space t (b :: rest))
    (skip : skipScalar b rest = .ok t') : Derives Passed .value t t' := by
  unfold skipScalar at skip
  split_ifs at skip with quote minus digit null yes no
  · subst quote
    exact .text space (skipString_eq_ok.1 skip)
  · subst minus
    exact .number space (.minus (unsigned_of_skipNumber skip))
  · exact .number space (.plain (unsigned_of_skipNumber skip))
  · subst null
    rw [readWord_eq_ok.1 skip] at space
    exact .null space
  · subst yes
    rw [readWord_eq_ok.1 skip] at space
    exact .true space
  · subst no
    rw [readWord_eq_ok.1 skip] at space
    exact .false space

theorem value_of_skipPiece {frames left : List Frame} {t t1 t' : Bytes}
    (run : skipPiece frames t = .ok (left, t1)) (continues : Continues left t1 t') :
    ∃ t2, Derives Passed .value t t2 ∧ Closes frames t2 t' := by
  unfold skipPiece at run
  split at run
  · cases run
  · rename_i b rest eq
    have space := space_of_skipSpace eq
    split_ifs at run with bracket brace
    · subst bracket
      have opens : Space t (opener .list :: rest) := space
      exact value_of_openFrame opens run continues
    · subst brace
      have opens : Space t (opener .object :: rest) := space
      exact value_of_openFrame opens run continues
    · split at run
      · cases run
      · rename_i scalar
        exact ⟨_, value_of_skipScalar space scalar, closes_of_closeFrames run continues⟩

theorem value_of_skipWithin {frames : List Frame} {t t' : Bytes}
    (run : skipWithin frames t = .ok t') :
    ∃ t2, Derives Passed .value t t2 ∧ Closes frames t2 t' := by
  fun_induction skipWithin frames t with
  | case1 => cases run
  | case2 frames t rest piece =>
    cases run
    exact value_of_skipPiece piece rfl
  | case3 frames t frame left rest piece _ ih => exact value_of_skipPiece piece (ih run)

/-- Passing over a value takes bytes off. -/
theorem length_skipWithin_lt {frames : List Frame} {t t' : Bytes}
    (run : skipWithin frames t = .ok t') : t'.length < t.length := by
  fun_induction skipWithin frames t with
  | case1 => cases run
  | case2 frames t rest piece =>
    cases run
    exact length_skipPiece_lt piece
  | case3 frames t frame left rest piece shorter ih => exact Nat.lt_trans (ih run) shorter

theorem length_skipValue_lt {t t' : Bytes} (skip : skipValue t = .ok t') :
    t'.length < t.length :=
  length_skipWithin_lt skip

/-- **What is passed over as a value is one.** -/
theorem value_of_skipValue {t t' : Bytes} (skip : skipValue t = .ok t') :
    Derives Passed .value t t' := by
  obtain ⟨t2, value, closes⟩ := value_of_skipWithin skip
  cases closes
  exact value

/-! ## A value is passed over -/

/-- What may follow an element of a frame: a comma or a closer. -/
def followers : Bytes := [44, 93, 125]

theorem not_isDigit_of_mem_blanks : ∀ b ∈ blanks, ¬ isDigit b := by
  simp [blanks, isDigit]

theorem not_isDigit_of_mem_followers : ∀ b ∈ followers, ¬ isDigit b := by
  simp [followers, isDigit]

/-- A comma or a closer stops whatever stands before it. -/
theorem Grammar.Space.stops {b : UInt8} {t t' : Bytes} (space : Space t (b :: t'))
    (follows : b ∈ followers) : Stops t := by
  intro first rest eq
  cases space with
  | none =>
    cases eq
    refine ⟨not_isDigit_of_mem_followers b follows, ?_⟩
    revert b
    simp [followers]
  | blank blank =>
    cases eq
    refine ⟨not_isDigit_of_mem_blanks _ blank, ?_⟩
    revert first
    simp [blanks]

theorem closer_mem (frame : Frame) : frame.closer ∈ followers := by
  cases frame <;> decide

theorem not_isSpace_closer (frame : Frame) : isSpace frame.closer = false := by
  cases frame <;> rfl

theorem Grammar.Derives.stops {string : Bytes → Bytes → Prop} {frame : Frame} {t t' : Bytes}
    (derives : Derives string (.rest frame) t t') : Stops t := by
  cases derives with
  | close space => exact space.stops (closer_mem frame)
  | more space => exact space.stops (by decide)

theorem Grammar.Unsigned.exists_digit {t t' : Bytes} (number : Unsigned t t') :
    ∃ b rest, t = b :: rest ∧ isDigit b := by
  obtain ⟨whole, _, _⟩ := number
  cases whole with
  | zero => exact ⟨48, _, rfl, by decide⟩
  | digits digit => exact ⟨_, _, rfl, digit⟩

/-- A digit is no other byte that a value can start with. -/
theorem ne_of_isDigit {b c : UInt8} (digit : isDigit b) (other : ¬ isDigit c) : b ≠ c := by
  rintro rfl
  exact other digit

theorem not_isSpace_of_isDigit {b : UInt8} (digit : isDigit b) : isSpace b = false := by
  apply Bool.eq_false_iff.2
  intro space
  exact not_isDigit_of_mem_blanks b (isSpace_iff.1 space) digit

/-- Where a value or an element starts, there is neither a comma nor a closer. -/
theorem Grammar.Derives.opening {string : Bytes → Bytes → Prop} {rule : Rule} {t t' : Bytes}
    (derives : Derives string rule t t') (starts : ∀ frame, rule ≠ .rest frame) :
    ∃ b rest, skipSpace t = b :: rest ∧ b ∉ followers := by
  induction derives with
  | null space => exact ⟨_, _, space.skipSpace_eq_cons (by decide), by decide⟩
  | true space => exact ⟨_, _, space.skipSpace_eq_cons (by decide), by decide⟩
  | false space => exact ⟨_, _, space.skipSpace_eq_cons (by decide), by decide⟩
  | text space => exact ⟨_, _, space.skipSpace_eq_cons (by decide), by decide⟩
  | member space => exact ⟨_, _, space.skipSpace_eq_cons (by decide), by decide⟩
  | number space numeral =>
    cases numeral with
    | plain number =>
      obtain ⟨b, rest, rfl, digit⟩ := number.exists_digit
      refine ⟨b, rest, space.skipSpace_eq_cons (not_isSpace_of_isDigit digit), ?_⟩
      intro follows
      exact not_isDigit_of_mem_followers b follows digit
    | minus => exact ⟨_, _, space.skipSpace_eq_cons (by decide), by decide⟩
  | @empty frame _ _ _ space =>
    cases frame <;> exact ⟨_, _, space.skipSpace_eq_cons (by decide), by decide⟩
  | @full frame _ _ _ _ space =>
    cases frame <;> exact ⟨_, _, space.skipSpace_eq_cons (by decide), by decide⟩
  | item _ ih => exact ih fun frame => nofun
  | @close frame => exact absurd rfl (starts frame)
  | @more frame => exact absurd rfl (starts frame)

/-- Goes on with the frames that a piece has left open. -/
def resume : Except Fault (List Frame × Bytes) → Except Fault Bytes
  | .error fault => .error fault
  | .ok ([], rest) => .ok rest
  | .ok (frame :: frames, rest) => skipWithin (frame :: frames) rest

/-- Goes to the value of the next element of a frame, and on from there. -/
def enter (frame : Frame) (frames : List Frame) (t : Bytes) : Except Fault Bytes :=
  match frame.toValue t with
  | .error fault => .error fault
  | .ok rest => skipWithin (frame :: frames) rest

theorem skipWithin_eq (frames : List Frame) (t : Bytes) :
    skipWithin frames t = resume (skipPiece frames t) := by
  rw [skipWithin]
  split
  · rename_i piece
    exact (congrArg resume piece).symm
  · rename_i piece
    exact (congrArg resume piece).symm
  · rename_i piece
    exact (congrArg resume piece).symm

theorem skipWithin_congr {s t : Bytes} (same : skipSpace s = skipSpace t) (frames : List Frame) :
    skipWithin frames s = skipWithin frames t := by
  rw [skipWithin_eq, skipWithin_eq, skipPiece, skipPiece, same]

theorem enter_congr {s t : Bytes} (same : skipSpace s = skipSpace t) (frame : Frame)
    (frames : List Frame) : enter frame frames s = enter frame frames t := by
  cases frame with
  | list => exact skipWithin_congr same _
  | object => simp only [enter, Frame.toValue, skipName, same]

theorem closeFrames_close {frame : Frame} {t t' : Bytes} (space : Space t (frame.closer :: t'))
    (frames : List Frame) : closeFrames (frame :: frames) t = closeFrames frames t' := by
  rw [closeFrames, space.skipSpace_eq_cons (not_isSpace_closer frame)]
  cases frame <;> rfl

theorem resume_closeFrames_more {t t' : Bytes} (space : Space t (44 :: t')) (frame : Frame)
    (frames : List Frame) : resume (closeFrames (frame :: frames) t) = enter frame frames t' := by
  rw [closeFrames, space.skipSpace_eq_cons (by decide)]
  simp only [if_true, enter]
  cases frame.toValue t' <;> rfl

theorem skipPiece_open {frame : Frame} {t t' : Bytes} (space : Space t (opener frame :: t'))
    (frames : List Frame) : skipPiece frames t = openFrame frame frames t' := by
  cases frame with
  | list =>
    rw [skipPiece, space.skipSpace_eq_cons (by decide)]
    rfl
  | object =>
    rw [skipPiece, space.skipSpace_eq_cons (by decide)]
    rfl

theorem openFrame_empty {frame : Frame} {t t' : Bytes} (space : Space t (frame.closer :: t'))
    (frames : List Frame) : openFrame frame frames t = closeFrames frames t' := by
  rw [openFrame, space.skipSpace_eq_cons (not_isSpace_closer frame)]
  simp only [if_true]

theorem resume_openFrame_full {string : Bytes → Bytes → Prop} {frame : Frame} {t t' : Bytes}
    (element : Derives string (.element frame) t t') (frames : List Frame) :
    resume (openFrame frame frames t) = enter frame frames t := by
  obtain ⟨b, rest, here, other⟩ := element.opening nofun
  have inside : b ≠ frame.closer := by
    rintro rfl
    exact other (closer_mem frame)
  have same := (space_of_skipSpace here).skipSpace_eq
  rw [openFrame, here]
  simp only [if_neg inside]
  rw [enter_congr same, enter]
  cases frame.toValue (b :: rest) <;> rfl

/-- Behind a value without brackets its frames are closed. -/
theorem skipPiece_scalar {b : UInt8} {t rest t' : Bytes} (space : Space t (b :: rest))
    (other : isSpace b = false ∧ b ≠ 91 ∧ b ≠ 123) (skip : skipScalar b rest = .ok t')
    (frames : List Frame) : skipPiece frames t = closeFrames frames t' := by
  rw [skipPiece, space.skipSpace_eq_cons other.1]
  simp only [if_neg other.2.1, if_neg other.2.2, skip]

/-- What the run does with each part of a value, whatever frames are open around it. -/
def Skipped : Rule → Bytes → Bytes → Prop
  | .value, t, t' =>
    Stops t' → ∀ frames, skipWithin frames t = resume (closeFrames frames t')
  | .element frame, t, t' =>
    Stops t' → ∀ frames, enter frame frames t = resume (closeFrames (frame :: frames) t')
  | .rest frame, t, t' =>
    ∀ frames, resume (closeFrames (frame :: frames) t) = resume (closeFrames frames t')

theorem skipped_scalar {b : UInt8} {t rest t' : Bytes} (space : Space t (b :: rest))
    (other : isSpace b = false ∧ b ≠ 91 ∧ b ≠ 123)
    (skip : Stops t' → skipScalar b rest = .ok t') : Skipped .value t t' := by
  intro stops frames
  rw [skipWithin_eq, skipPiece_scalar space other (skip stops)]

/-- **Every part is passed over**, by induction on how the grammar describes it. -/
theorem skipped_of_derives {rule : Rule} {t t' : Bytes} (derives : Derives Passed rule t t') :
    Skipped rule t t' := by
  induction derives with
  | null space => exact skipped_scalar space (by decide) fun _ => rfl
  | true space => exact skipped_scalar space (by decide) fun _ => rfl
  | false space => exact skipped_scalar space (by decide) fun _ => rfl
  | text space string =>
    exact skipped_scalar space (by decide) fun _ => skipString_eq_ok.2 string
  | number space numeral =>
    cases numeral with
    | plain number =>
      obtain ⟨b, rest, rfl, digit⟩ := number.exists_digit
      have bracket := ne_of_isDigit digit (by decide : ¬ isDigit 91)
      have brace := ne_of_isDigit digit (by decide : ¬ isDigit 123)
      have quote := ne_of_isDigit digit (by decide : ¬ isDigit 34)
      have minus := ne_of_isDigit digit (by decide : ¬ isDigit 45)
      apply skipped_scalar space ⟨not_isSpace_of_isDigit digit, bracket, brace⟩
      intro stops
      rw [skipScalar, if_neg quote, if_neg minus, if_pos digit, skipNumber_eq_ok number stops]
    | minus number =>
      exact skipped_scalar space (by decide) fun stops => skipNumber_eq_ok number stops
  | empty space inside =>
    intro _ frames
    rw [skipWithin_eq, skipPiece_open space, openFrame_empty inside]
  | full space element behind ihElement ihRest =>
    intro _ frames
    rw [skipWithin_eq, skipPiece_open space, resume_openFrame_full element,
      ihElement behind.stops, ihRest]
  | item _ ih =>
    intro stops frames
    exact ih stops (.list :: frames)
  | member quote string colon _ ih =>
    intro stops frames
    have name := skipName_eq_ok.2 ⟨_, _, quote, string, colon⟩
    simp only [enter, Frame.toValue, name]
    exact ih stops (.object :: frames)
  | close space =>
    intro frames
    rw [closeFrames_close space]
  | more space _ behind ihElement ihRest =>
    intro frames
    rw [resume_closeFrames_more space, ihElement behind.stops, ihRest]

/-- **A value is passed over where it stops.** -/
theorem skipValue_eq_ok {t t' : Bytes} (value : Derives Passed .value t t') (stops : Stops t') :
    skipValue t = .ok t' :=
  skipped_of_derives value stops []

end PostStore.Json
