import PostStore.Proofs.Numerals
import PostStore.Settings.Basic
/-!
# Readings of environment variables

What the text of a variable means: the text itself, the number of a numeral between blanks, or what
a name from a table stands for.  A text without a meaning is blamed on the variable, or on itself
where it was to name a kind.
-/

namespace PostStore

namespace Environment

/-- The variable of the family is set, and not to the empty text. -/
def Sets (env : Environment) (name raw : String) : Prop :=
  env (variableName name) = some raw ∧ raw ≠ ""

theorem text?_eq_some {env : Environment} {name raw : String} :
    env.text? name = some raw ↔ env.Sets name raw := by
  simp [text?, Sets, Option.filter_eq_some_iff]

theorem text?_eq_none {env : Environment} {name : String} :
    env.text? name = none ↔ ∀ raw, ¬ env.Sets name raw := by
  rw [Option.eq_none_iff_forall_ne_some]
  exact forall_congr' fun raw => not_congr text?_eq_some

end Environment

/-! ## Readings -/

/-- How the text of a variable is read: what it means, if anything, and which faults may be found
with a text that means nothing. -/
structure Reading (α : Type) where
  Means : String → α → Prop
  Blames : (name raw : String) → SettingsError → Prop
  unique : ∀ {raw : String} {a b : α}, Means raw a → Means raw b → a = b

namespace Reading

variable {α β κ : Type}

/-- The text itself, whatever it is. -/
def text : Reading String where
  Means raw a := a = raw
  Blames _ _ _ := False
  unique first second := first.trans second.symm

/-- A number, written as a numeral between blanks; the fault names the variable and gives the whole
text. -/
def number (bound : Nat) : Reading Nat where
  Means raw n := ∃ word, Text.Trimmed raw.toList word ∧ Text.IsNumeral word n ∧ n ≤ bound
  Blames name raw error := ∃ reason : Text.NumeralError,
    error = .invalid (Environment.variableName name) raw reason.message
  unique := by
    rintro raw m n ⟨word, trimmed, first⟩ ⟨word', trimmed', second⟩
    obtain rfl := (Text.trimmed_iff.1 trimmed).symm.trans (Text.trimmed_iff.1 trimmed')
    have same := ((Text.readUnsigned_eq_ok word).2 first).symm.trans
      ((Text.readUnsigned_eq_ok word).2 second)
    exact Except.ok.inj same

/-- What a name stands for, written in capital or small letters and between blanks; the fault gives
the whole text. -/
def kind (names : List (String × κ))
    (single : ∀ entry ∈ names, ∀ other ∈ names, entry.1 = other.1 → entry.2 = other.2) :
    Reading κ where
  Means raw a := ∃ word name, Text.Trimmed raw.toList word ∧
    word.map Char.toLower = name.toList ∧ (name, a) ∈ names
  Blames _ raw error := error = .unsupported raw
  unique := by
    rintro raw a b ⟨word, name, trimmed, folded, first⟩ ⟨word', name', trimmed', folded', second⟩
    obtain rfl := (Text.trimmed_iff.1 trimmed).symm.trans (Text.trimmed_iff.1 trimmed')
    exact single _ first _ second (String.toList_inj.1 (folded.symm.trans folded'))

/-- The same reading of something that is made of its values. -/
def map (r : Reading α) (f : α → β) : Reading β where
  Means raw b := ∃ a, r.Means raw a ∧ f a = b
  Blames := r.Blames
  unique := by
    rintro raw _ _ ⟨a, first, rfl⟩ ⟨b, second, rfl⟩
    rw [r.unique first second]

/-! ## Loading -/

/-- What a variable gives: the meaning of its text, or a default if it has none. -/
structure Loads (r : Reading α) (env : Environment) (name : String) (default a : α) : Prop where
  set : ∀ raw, env.Sets name raw → r.Means raw a
  unset : (∀ raw, ¬ env.Sets name raw) → a = default

/-- A variable is set to a text that means nothing, and a fault is found with it. -/
def Misread (r : Reading α) (env : Environment) (name : String) (error : SettingsError) : Prop :=
  ∃ raw, env.Sets name raw ∧ (∀ a, ¬ r.Means raw a) ∧ r.Blames name raw error

/-- A program reads texts as a reading says. -/
structure Parses (r : Reading α) (name : String) (parse : String → Except SettingsError α) :
    Prop where
  ok : ∀ raw a, parse raw = .ok a ↔ r.Means raw a
  blames : ∀ raw error, parse raw = .error error → r.Blames name raw error

variable {r : Reading α} {env : Environment} {name raw : String} {default a : α}

theorem loads_of_none (unset : env.text? name = none) :
    r.Loads env name default a ↔ a = default := by
  have never := Environment.text?_eq_none.1 unset
  refine ⟨fun loads => loads.unset never, fun same => ⟨fun raw set => ?_, fun _ => same⟩⟩
  exact (never raw set).elim

theorem loads_of_some (set : env.text? name = some raw) :
    r.Loads env name default a ↔ r.Means raw a := by
  have here := Environment.text?_eq_some.1 set
  refine ⟨fun loads => loads.set raw here, fun means => ⟨fun raw' set' => ?_, ?_⟩⟩
  · obtain rfl := Option.some.inj (here.1.symm.trans set'.1)
    exact means
  · exact fun never => (never raw here).elim

theorem loads_map (f : α → β) (default : α) (b : β) :
    (r.map f).Loads env name (f default) b ↔ ∃ a, r.Loads env name default a ∧ f a = b := by
  cases here : env.text? name with
  | none => simp [loads_of_none here, eq_comm]
  | some raw => simp only [loads_of_some here]; rfl

theorem misread_map (f : α → β) {error : SettingsError} :
    (r.map f).Misread env name error ↔ r.Misread env name error := by
  refine exists_congr fun raw => and_congr_right fun _ => and_congr_left fun _ => ?_
  exact ⟨fun nothing a means => nothing (f a) ⟨a, means, rfl⟩,
    fun nothing _ ⟨a, means, _⟩ => nothing a means⟩

theorem loads_text (default a : String) :
    text.Loads env name default a ↔ a = env.textOr name default := by
  unfold Environment.textOr
  cases here : env.text? name with
  | none => exact loads_of_none here
  | some raw => exact loads_of_some here

theorem loads_optional (a : Option String) :
    (text.map some).Loads env name none a ↔ a = env.text? name := by
  cases here : env.text? name with
  | none => exact loads_of_none here
  | some raw =>
    rw [loads_of_some here]
    exact ⟨fun ⟨_, same, out⟩ => out ▸ congrArg some same, fun out => ⟨raw, rfl, out.symm⟩⟩

namespace Parses

variable {parse : String → Except SettingsError α}

theorem kindOr_eq_ok (parses : r.Parses name parse) :
    env.kindOr name parse default = .ok a ↔ r.Loads env name default a := by
  unfold Environment.kindOr
  cases here : env.text? name with
  | none => rw [loads_of_none here, Except.ok.injEq, eq_comm]
  | some raw => rw [loads_of_some here, parses.ok]

theorem kindOr_eq_error (parses : r.Parses name parse) {error : SettingsError}
    (failed : env.kindOr name parse default = .error error) : r.Misread env name error := by
  unfold Environment.kindOr at failed
  cases here : env.text? name with
  | none => rw [here] at failed; exact nomatch failed
  | some raw =>
    rw [here] at failed
    have set := Environment.text?_eq_some.1 here
    refine ⟨raw, set, fun a means => ?_, parses.blames raw error failed⟩
    exact nomatch failed.symm.trans ((parses.ok raw a).2 means)

end Parses

/-! ## Numbers -/

/-- Reads the number in a text. -/
def parseNumber (name : String) (bound : Nat) (raw : String) : Except SettingsError Nat :=
  match Text.readUnsigned bound (Text.trim raw.toList) with
  | .ok n => .ok n
  | .error e => .error (.invalid (Environment.variableName name) raw e.message)

theorem numberOr_eq_kindOr (env : Environment) (name : String) (bound default : Nat) :
    env.numberOr name bound default = env.kindOr name (parseNumber name bound) default := rfl

theorem means_number {bound n : Nat} :
    (number bound).Means raw n ↔ Text.readUnsigned bound (Text.trim raw.toList) = .ok n := by
  rw [Text.readUnsigned_eq_ok]
  constructor
  · rintro ⟨word, trimmed, numeral⟩
    rw [Text.trimmed_iff.1 trimmed]
    exact numeral
  · exact fun numeral => ⟨_, Text.trimmed_trim _, numeral⟩

theorem parses_number (name : String) (bound : Nat) :
    (number bound).Parses name (parseNumber name bound) where
  ok raw n := by
    rw [means_number, parseNumber]
    cases Text.readUnsigned bound (Text.trim raw.toList) with
    | ok m => rw [Except.ok.injEq, Except.ok.injEq]
    | error e => exact iff_of_false (fun no => nomatch no) (fun no => nomatch no)
  blames raw error failed := by
    unfold parseNumber at failed
    cases read : Text.readUnsigned bound (Text.trim raw.toList) with
    | ok m => rw [read] at failed; exact nomatch failed
    | error reason =>
      rw [read] at failed
      exact ⟨reason, (Except.error.inj failed).symm⟩

/-! ## Kinds -/

/-- The names of the kinds of stores. -/
def storeKinds : List (String × StoreKind) :=
  [("memory", .memory), ("postgres", .postgres), ("postgresql", .postgres), ("lmdb", .lmdb),
    ("redis", .redis)]

/-- The names of the kinds of caches. -/
def cacheKinds : List (String × CacheKind) :=
  [("none", .none), ("noop", .none), ("memory", .memory), ("lru", .memory), ("redis", .redis)]

theorem means_kind {names : List (String × κ)} {single} {k : κ} :
    (kind names single).Means raw k ↔ (foldKind raw, k) ∈ names := by
  constructor
  · rintro ⟨word, name, trimmed, folded, listed⟩
    rw [foldKind, Text.trimmed_iff.1 trimmed, folded, String.ofList_toList]
    exact listed
  · exact fun listed => ⟨_, _, Text.trimmed_trim _, String.toList_ofList.symm, listed⟩

/-- The kinds of stores. -/
def storeKind : Reading StoreKind := kind storeKinds (by decide)

/-- The kinds of caches. -/
def cacheKind : Reading CacheKind := kind cacheKinds (by decide)

theorem lookup_cons_eq_ite (name key : String) (k : κ) (names : List (String × κ)) :
    ((key, k) :: names).lookup name = if name = key then some k else names.lookup name := by
  by_cases same : name = key
  · rw [if_pos same, same, List.lookup_cons_self]
  · rw [if_neg same, List.lookup_cons, beq_eq_false_iff_ne.2 same]

theorem lookup_eq_some {names : List (String × κ)}
    (single : ∀ entry ∈ names, ∀ other ∈ names, entry.1 = other.1 → entry.2 = other.2)
    {name : String} {k : κ} : names.lookup name = some k ↔ (name, k) ∈ names := by
  constructor
  · intro found
    obtain ⟨front, back, rfl, -⟩ := List.lookup_eq_some_iff.1 found
    exact List.mem_append_right front List.mem_cons_self
  · intro listed
    have known : (names.lookup name).isSome = true :=
      List.lookup_isSome_iff.2 ⟨(name, k), listed, beq_self_eq_true name⟩
    obtain ⟨other, found⟩ := Option.isSome_iff_exists.1 known
    obtain ⟨front, back, rfl, -⟩ := List.lookup_eq_some_iff.1 found
    obtain rfl : other = k := single _ (List.mem_append_right front List.mem_cons_self) _ listed rfl
    exact found

/-- Looking up what a text names is reading a kind. -/
theorem parses_kind {names : List (String × κ)} {single} {parse : String → Except SettingsError κ}
    (looks : ∀ raw, parse raw =
      (names.lookup (foldKind raw)).elim (.error (.unsupported raw)) .ok) (name : String) :
    (kind names single).Parses name parse where
  ok raw k := by
    rw [means_kind, looks, ← lookup_eq_some single]
    cases names.lookup (foldKind raw) with
    | none => exact iff_of_false (fun no => nomatch no) (fun no => nomatch no)
    | some found => rw [Option.elim_some, Except.ok.injEq, Option.some.injEq]
  blames raw error failed := by
    rw [looks] at failed
    cases found : names.lookup (foldKind raw) with
    | none => rw [found] at failed; exact (Except.error.inj failed).symm
    | some k => rw [found] at failed; exact nomatch failed

theorem parses_storeKind (name : String) : storeKind.Parses name StoreKind.ofText := by
  refine parses_kind (fun raw => ?_) name
  unfold StoreKind.ofText storeKinds
  generalize foldKind raw = folded
  simp only [lookup_cons_eq_ite, List.lookup_nil]
  grind

theorem parses_cacheKind (name : String) : cacheKind.Parses name CacheKind.ofText := by
  refine parses_kind (fun raw => ?_) name
  unfold CacheKind.ofText cacheKinds
  generalize foldKind raw = folded
  simp only [lookup_cons_eq_ite, List.lookup_nil]
  grind

end Reading

end PostStore
