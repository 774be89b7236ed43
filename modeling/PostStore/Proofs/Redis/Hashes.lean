import PostStore.Proofs.Draining
import PostStore.Proofs.Redis.Replies
/-!
# Hashes and scans

What is asked of a server of the store's commands: lookups, filings and removals act as on a map of
hashes, and a scan that is read to its end gives every field of the hash, perhaps more than once and
in batches of any size.  A listing over such a server gives the value of every field, once.
-/

namespace PostStore.Redis

/-! ## Any server of the commands -/

section Serving

variable {σ α β : Type} (serve : (command : Command) → σ → ReplyTo command × σ)

/-- Runs commands on the server. -/
def converseWith (talk : Talk α) (s : σ) : Except StoreError α × σ :=
  Dialogue.run serve talk.run s

/-- The store over any server of its commands.  A scan of a hash takes at most `bound` commands and
finds at most as many fields. -/
def storeOver (setup : StoreSetup) (bound : σ → String → Nat) : Store σ Scan where
  name := storeName
  serve call := converseWith serve (perform setup call)
  feed := Cursor.feed
    (Cursor.atOnce fun mark s => converseWith serve (fill (bound s mark.key) mark) s) decode
    fun mark s => bound s mark.key

/-- Over the plain server this is the store as it is set up. -/
theorem storeOver_serve (setup : StoreSetup) :
    storeOver Server.serve setup Server.scanBound = store setup := rfl

variable {serve} {s s' : σ}

/-- Talks are run one after the other, unless the first fails. -/
theorem converse_bind (talk : Talk α) (next : α → Talk β) (s : σ) :
    converseWith serve (talk >>= next) s =
      match (converseWith serve talk s).1 with
      | .ok value => converseWith serve (next value) (converseWith serve talk s).2
      | .error e => (.error e, (converseWith serve talk s).2) := by
  show Dialogue.run serve (Dialogue.bind talk.run (ExceptT.bindCont next)) s = _
  rw [Dialogue.run_bind, converseWith]
  cases (Dialogue.run serve talk.run s).1 <;> rfl

/-- After a command the talk goes on with the reply, unless that is an error. -/
theorem converse_send_eq (command : Command) (next : Reply → Talk β) (s : σ) :
    converseWith serve (send command >>= next) s =
      match (serve command s).1.checked with
      | .ok reply => converseWith serve (next reply) (serve command s).2
      | .error problem => (.error problem.toStoreError, (serve command s).2) := by
  have sent : converseWith serve (send command) s =
      ((serve command s).1.checked.mapError Problem.toStoreError, (serve command s).2) := rfl
  rw [converse_bind, sent]
  cases (serve command s).1.checked <;> rfl

/-- After a command whose reply is no error, the talk goes on with the reply. -/
theorem converse_send {command : Command} {reply : Reply} (next : Reply → Talk β)
    (served : serve command s = (reply, s')) (calm : reply.checked = .ok reply) :
    converseWith serve (send command >>= next) s = converseWith serve (next reply) s' := by
  rw [converse_send_eq, served, calm]

/-- After a reply that is understood, the talk goes on with what it means. -/
theorem converse_understand {value : α} {reply : Except Problem α} (next : α → Talk β)
    (understood : reply = .ok value) (s : σ) :
    converseWith serve (understand reply >>= next) s = converseWith serve (next value) s := by
  rw [understood, converse_bind]
  rfl

end Serving

/-! ## What is asked of the server -/

section Contract

variable {σ : Type} (serve : (command : Command) → σ → ReplyTo command × σ)
  (bound : σ → String → Nat)

/-- A scan of a hash that goes on from a cursor and finds some fields until it ends: each command is
replied to with a batch of them and the cursor of the next batch, which is zero after the last. -/
inductive Scans (key : String) (count : Nat) : Nat → σ → Fields → σ → Nat → Prop where
  | last {cursor : Nat} {s s' : σ} {batch : Fields}
      (served : serve (.hscan key cursor count) s = (batchReply 0 batch, s'))
      (bounded : 1 ≤ bound s key) : Scans key count cursor s batch s' 1
  | more {cursor next steps : Nat} {s s' final : σ} {batch rest : Fields}
      (served : serve (.hscan key cursor count) s = (batchReply next batch, s'))
      (goesOn : next ≠ 0) (word : next < Nat.pow 2 64) (bounded : steps + 1 ≤ bound s key)
      (others : Scans key count next s' rest final steps) :
      Scans key count cursor s (batch ++ rest) final (steps + 1)

/-- In a sound state the commands act as on a map of hashes, and a scan that is read to its end
finds exactly the fields of the hash with their values. -/
structure ActsAsHashes (sound : σ → Prop) (hash : σ → String → String → Option Bytes) :
    Prop where
  hget : ∀ key field s, sound s →
    (serve (.hget key field) s).1 = (hash s key field).elim .nil .bulk ∧
      sound (serve (.hget key field) s).2 ∧ hash (serve (.hget key field) s).2 = hash s
  hset : ∀ key field value s, sound s →
    (∃ n, (serve (.hset key field value) s).1 = .int n) ∧
      hash (serve (.hset key field value) s).2 = fun k f =>
        if k = key ∧ f = field then some value else hash s k f
  hdel : ∀ key field s, sound s →
    (∃ n, (serve (.hdel key field) s).1 = .int n) ∧
      hash (serve (.hdel key field) s).2 = fun k f =>
        if k = key ∧ f = field then none else hash s k f
  hscan : ∀ key count s, sound s → 0 < count → ∃ found final steps,
    Scans serve bound key count 0 s found final steps ∧ hash final = hash s ∧
      ∀ field value, (field, value) ∈ found ↔ hash s key field = some value
  fields : ∀ key s (names : List String), sound s → names.Nodup →
    (∀ field ∈ names, hash s key field ≠ none) → names.length ≤ bound s key

end Contract

/-! ## The first of each field -/

/-- The fields whose names have not been seen, each as it comes first. -/
def firsts : (seen : List String) → List (String × String) → List (String × String)
  | _, [] => []
  | seen, field :: rest =>
    if field.1 ∈ seen then firsts seen rest else field :: firsts (field.1 :: seen) rest

/-- The names that have been seen after some fields. -/
def seenAfter (seen : List String) (fields : List (String × String)) : List String :=
  ((firsts seen fields).map Prod.fst).reverse ++ seen

theorem unseen_eq (fields : List (String × String)) :
    ∀ seen, unseen seen (fields.flatMap fun field => [field.1, field.2]) =
      ((firsts seen fields).map Prod.snd, seenAfter seen fields) := by
  induction fields with
  | nil => exact fun _ => rfl
  | cons field rest ih =>
    intro seen
    rw [List.flatMap_cons, List.cons_append, List.cons_append, List.nil_append, unseen, seenAfter,
      firsts]
    split
    · exact ih seen
    · rw [ih, seenAfter, List.map_cons, List.map_cons, List.reverse_cons, List.append_assoc]
      rfl

theorem firsts_append (front back : List (String × String)) :
    ∀ seen, firsts seen (front ++ back) =
      firsts seen front ++ firsts (seenAfter seen front) back := by
  induction front with
  | nil => exact fun _ => rfl
  | cons field rest ih =>
    intro seen
    rw [List.cons_append, firsts, seenAfter, firsts]
    split
    · exact ih seen
    · rw [ih, List.cons_append, seenAfter, List.map_cons, List.reverse_cons, List.append_assoc]
      rfl

/-- Seeing nothing new changes nothing. -/
theorem seenAfter_of_nil {seen : List String} {fields : List (String × String)}
    (nothing : firsts seen fields = []) : seenAfter seen fields = seen := by
  rw [seenAfter, nothing]
  rfl

theorem mem_of_mem_firsts {field : String × String} {fields : List (String × String)} :
    ∀ {seen}, field ∈ firsts seen fields → field ∈ fields ∧ field.1 ∉ seen := by
  induction fields with
  | nil => exact fun member => nomatch member
  | cons other rest ih =>
    intro seen member
    rw [firsts] at member
    split at member
    · exact ⟨List.mem_cons_of_mem _ (ih member).1, (ih member).2⟩
    · rename_i new
      rcases List.mem_cons.1 member with rfl | later
      · exact ⟨List.mem_cons_self, new⟩
      · obtain ⟨inside, notSeen⟩ := ih later
        exact ⟨List.mem_cons_of_mem _ inside, fun old => notSeen (List.mem_cons_of_mem _ old)⟩

/-- No name comes twice. -/
theorem nodup_firsts (fields : List (String × String)) :
    ∀ seen, ((firsts seen fields).map Prod.fst).Nodup := by
  induction fields with
  | nil => exact fun _ => List.nodup_nil
  | cons field rest ih =>
    intro seen
    rw [firsts]
    split
    · exact ih seen
    · rw [List.map_cons, List.nodup_cons]
      refine ⟨fun again => ?_, ih _⟩
      obtain ⟨other, member, same⟩ := List.mem_map.1 again
      exact (mem_of_mem_firsts member).2 (same ▸ List.mem_cons_self)

/-- Every name that has not been seen comes. -/
theorem name_mem_firsts {name : String} {fields : List (String × String)} :
    ∀ {seen}, name ∈ fields.map Prod.fst → name ∉ seen →
      name ∈ (firsts seen fields).map Prod.fst := by
  induction fields with
  | nil => exact fun member _ => member
  | cons field rest ih =>
    intro seen member notSeen
    rw [firsts]
    rcases List.mem_cons.1 member with rfl | later
    · rw [if_neg notSeen, List.map_cons]
      exact List.mem_cons_self
    · split
      · exact ih later notSeen
      · rw [List.map_cons, List.mem_cons]
        by_cases here : name = field.1
        · exact .inl here
        · refine .inr (ih later fun old => ?_)
          rcases List.mem_cons.1 old with same | earlier
          · exact here same
          · exact notSeen earlier

/-! ## Listings -/

section Scanning

variable {σ : Type} {serve : (command : Command) → σ → ReplyTo command × σ}
  {bound : σ → String → Nat} {key : String} {count cursor steps : Nat} {s final : σ}
  {found : Fields}

theorem Scans.le_bound (scans : Scans serve bound key count cursor s found final steps) :
    steps ≤ bound s key := by
  cases scans with
  | last _ bounded => exact bounded
  | more _ _ _ bounded _ => exact bounded

theorem Scans.pos (scans : Scans serve bound key count cursor s found final steps) : 0 < steps := by
  cases scans <;> omega

/-- A page of a listing ends the scan, or it holds the fields that are new in the batches so far, of
which there are some, and the scan goes on behind them. -/
theorem fill_of_scans (scans : Scans serve bound key count cursor s found final steps) :
    ∀ {limit : Nat} (seen : List String) (fields : List (String × String)),
      found = inBytes fields → steps ≤ limit →
      (converseWith serve (fill limit ⟨key, count, cursor, seen⟩) s =
        (.ok ((firsts seen fields).map Prod.snd, none), final)) ∨
      ∃ front back cursor' s' steps', fields = front ++ back ∧ firsts seen front ≠ [] ∧
        converseWith serve (fill limit ⟨key, count, cursor, seen⟩) s =
          (.ok ((firsts seen front).map Prod.snd,
            some ⟨key, count, cursor', seenAfter seen front⟩), s') ∧
        Scans serve bound key count cursor' s' (inBytes back) final steps' ∧ steps' < steps := by
  -- on the batches of the scan; a page ends with the first batch that has something new
  induction scans with
  | last served _ =>
    intro limit seen fields eq fits
    subst eq
    obtain ⟨limit, rfl⟩ : ∃ fewer, limit = fewer + 1 := ⟨limit - 1, by omega⟩
    refine .inl ?_
    have zero : 0 < Nat.pow 2 64 := by decide
    rw [fill, converse_send _ served (checked_batchReply _ _),
      converse_understand _ (toScan_batchReply zero fields)]
    simp only [unseen_eq, if_true]
    rfl
  | @more cursor next steps s s' final batch rest served goesOn word _ others ih =>
    intro limit seen fields eq fits
    obtain ⟨limit, rfl⟩ : ∃ fewer, limit = fewer + 1 := ⟨limit - 1, by omega⟩
    obtain ⟨front, back, rfl, first, second⟩ := List.map_eq_append_iff.1 eq.symm
    obtain rfl : batch = inBytes front := first.symm
    obtain rfl : rest = inBytes back := second.symm
    have onward : converseWith serve (fill (limit + 1) ⟨key, count, cursor, seen⟩) s =
        if firsts seen front = [] then
          converseWith serve (fill limit ⟨key, count, next, seenAfter seen front⟩) s'
        else (.ok ((firsts seen front).map Prod.snd,
          some ⟨key, count, next, seenAfter seen front⟩), s') := by
      rw [fill, converse_send _ served (checked_batchReply _ _),
        converse_understand _ (toScan_batchReply word front)]
      simp only [unseen_eq, if_neg goesOn, List.isEmpty_iff, List.map_eq_nil_iff]
      split <;> rfl
    by_cases nothing : firsts seen front = []
    · -- the batch holds nothing new, so the scan goes on within the same page
      rw [if_pos nothing, seenAfter_of_nil nothing] at onward
      have skip : ∀ more, firsts seen (front ++ more) = firsts seen more := by
        intro more
        rw [firsts_append, nothing, seenAfter_of_nil nothing, List.nil_append]
      rw [onward]
      rcases ih seen back rfl (by omega : steps ≤ limit) with ended |
        ⟨front', back', cursor', s'', steps', rfl, some, filled, left, fewer⟩
      · rw [skip]
        exact .inl ended
      · refine .inr ⟨front ++ front', back', cursor', s'', steps', (List.append_assoc ..).symm, ?_,
          ?_, left, Nat.lt_succ_of_lt fewer⟩
        · rw [skip]
          exact some
        · rw [filled, seenAfter, seenAfter, skip]
    · rw [if_neg nothing] at onward
      exact .inr ⟨front, back, next, s', steps, rfl, nothing, onward, others, Nat.lt_succ_self _⟩

/-- **The pages of a listing hold the values of the fields that a scan finds, each once.** -/
theorem Scans.ahead (limit : Nat) :
    ∀ {cursor steps : Nat} {s : σ} (seen : List String) (fields : List (String × String)),
      Scans serve bound key count cursor s (inBytes fields) final steps → steps ≤ limit →
      Cursor.Ahead
        (Cursor.atOnce fun (mark : Mark) s => converseWith serve (fill (bound s mark.key) mark) s)
        (some ⟨key, count, cursor, seen⟩) s ((firsts seen fields).map Prod.snd) final := by
  induction limit with
  | zero =>
    intro cursor steps s seen fields scans few
    have positive := scans.pos
    omega
  | succ limit ih =>
    intro cursor steps s seen fields scans few
    rcases fill_of_scans scans seen fields rfl scans.le_bound with ended |
      ⟨front, back, cursor', s', steps', rfl, some, filled, left, fewer⟩
    · by_cases nothing : firsts seen fields = []
      · rw [nothing] at ended ⊢
        exact .last (Cursor.atOnce_eq_ok.2 ended)
      · have nonempty : (firsts seen fields).map Prod.snd ≠ [] := mt List.map_eq_nil_iff.1 nothing
        rw [← List.append_nil ((firsts seen fields).map Prod.snd)]
        exact .page (Cursor.atOnce_eq_ok.2 ended) nonempty (.nothing final)
    · have nonempty : (firsts seen front).map Prod.snd ≠ [] := mt List.map_eq_nil_iff.1 some
      rw [firsts_append, List.map_append]
      exact .page (Cursor.atOnce_eq_ok.2 filled) nonempty (ih _ back left (by omega))

end Scanning

end PostStore.Redis
