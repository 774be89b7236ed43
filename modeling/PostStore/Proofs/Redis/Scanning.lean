import Mathlib.Data.List.Basic
import PostStore.Proofs.Asking
import PostStore.Proofs.Redis.Hashes
/-!
# What a scan delivers

Whatever the server replies to the commands of a scan, batches that lead on and at last one that
does not, a listing that is read to its end sends one command for each reply and delivers for every
field the value with which it first came.  A reply that is a failure is delivered in its place, and
ends the listing.
-/

namespace PostStore

/-! ## Reading a feed to its end -/

/-- What a feed delivers to one who takes every element that is reached, until an advance reaches
none, and the cursor and the medium that are left then. -/
inductive Feed.Drains {σ κ : Type} (feed : Feed σ κ) : κ → σ → List Delivery → κ → σ → Prop
  | ended {cursor cursor' : κ} {s s' : σ} (reached : feed.next cursor s = (false, cursor', s')) :
      Drains feed cursor s [] cursor' s'
  | took {cursor cursor' cursor'' final : κ} {s s' sf : σ} {delivery : Delivery}
      {rest : List Delivery} (reached : feed.next cursor s = (true, cursor', s'))
      (taken : feed.get cursor' = (delivery, cursor''))
      (others : Drains feed cursor'' s' rest final sf) :
      Drains feed cursor s (delivery :: rest) final sf

section Draining

variable {σ κ μ δ : Type}

/-- What is delivered depends on the next advance only. -/
theorem Feed.Drains.congr {feed : Feed σ κ} {cursor cursor' final : κ} {s s' sf : σ}
    {deliveries : List Delivery} (drains : feed.Drains cursor' s' deliveries final sf)
    (alike : feed.next cursor s = feed.next cursor' s') :
    feed.Drains cursor s deliveries final sf := by
  cases drains with
  | ended reached => exact .ended (alike.trans reached)
  | took reached taken others => exact .took (alike.trans reached) taken others

/-- The elements that have been fetched come first. -/
theorem Cursor.drains_buffer {fetch : μ → σ → Except (Fault δ) (Page μ δ) × σ}
    {decode : δ → Except StoreError Post} {bound : μ → σ → Nat} {mark : Option μ} {s sf : σ}
    {deliveries : List Delivery} {final : Cursor μ δ}
    (drains : ∀ current, (feed fetch decode bound).Drains
      { mark := mark, buffer := [], current := current } s deliveries final sf)
    (buffer : List δ) : ∀ current, (feed fetch decode bound).Drains
      { mark := mark, buffer := buffer, current := current } s
      (buffer.map decode ++ deliveries) final sf := by
  induction buffer with
  | nil => exact drains
  | cons element rest ih => exact fun current => .took rfl rfl (ih none)

end Draining

namespace Redis

/-! ## The first value of each field -/

/-- The values with which the fields first came, in the order in which they did. -/
def firstValues (fields : List (String × String)) : List String :=
  (fields.map Prod.fst).eraseDups.filterMap fun name => Bindings.get? name fields

/-- Each name comes where it occurs first, unless it has been seen. -/
theorem names_firsts (fields : List (String × String)) : ∀ seen,
    (firsts seen fields).map Prod.fst =
      ((fields.map Prod.fst).filter fun name => name ∉ seen).eraseDups := by
  induction fields with
  | nil => exact fun _ => rfl
  | cons field rest ih =>
    intro seen
    rw [firsts, List.map_cons, List.filter_cons]
    by_cases old : field.1 ∈ seen
    · simp only [old, if_true, not_true_eq_false, decide_false, Bool.false_eq_true, if_false, ih]
    · have others : ∀ name, (name ∉ field.1 :: seen) ↔ name ≠ field.1 ∧ name ∉ seen :=
        fun name => by rw [List.mem_cons, not_or]
      simp only [old, if_false, not_false_eq_true, decide_true, if_true, List.map_cons, ih,
        List.eraseDups_cons, List.filter_filter, others, Bool.decide_and, ne_eq, decide_not]
      rfl

/-- With each name comes the value that it had first. -/
theorem get?_of_mem_firsts {field : String × String} {fields : List (String × String)} :
    ∀ {seen}, field ∈ firsts seen fields → Bindings.get? field.1 fields = some field.2 := by
  induction fields with
  | nil => exact fun member => nomatch member
  | cons first rest ih =>
    intro seen member
    rw [firsts] at member
    rw [Bindings.get?]
    by_cases old : first.1 ∈ seen
    · rw [if_pos old] at member
      have other : first.1 ≠ field.1 := fun same => (mem_of_mem_firsts member).2 (same ▸ old)
      rw [if_neg other, ih member]
    · rw [if_neg old] at member
      rcases List.mem_cons.1 member with rfl | later
      · rw [if_pos rfl]
      · have other : first.1 ≠ field.1 := fun same =>
          (mem_of_mem_firsts later).2 (same ▸ List.mem_cons_self)
        rw [if_neg other, ih later]

/-- What is delivered of some fields, when nothing has been seen before. -/
theorem values_firsts (fields : List (String × String)) :
    (firsts [] fields).map Prod.snd = firstValues fields := by
  have all : (fields.map Prod.fst).filter (fun name => name ∉ ([] : List String)) =
      fields.map Prod.fst := List.filter_eq_self.2 fun name _ => by simp
  have names := names_firsts fields []
  rw [all] at names
  rw [firstValues, ← names, List.filterMap_map]
  exact (List.filterMap_eq_map_iff_forall_eq_some.2 fun field => get?_of_mem_firsts).symm

/-! ## The replies to a scan -/

/-- What a reply to a scan is understood as: a cursor, and texts. -/
def Reply.scanned (reply : Reply) : Except Problem (Nat × List String) :=
  reply.checked.bind Reply.toScan

/-- A reply that is understood as the cursor of the next batch and some fields with their values. -/
structure Batch where
  reply : Reply
  cursor : Nat
  fields : List (String × String)
  understood : reply.scanned = .ok (cursor, fields.flatMap fun field => [field.1, field.2])

/-- A batch of any fields, with any cursor that can be told. -/
def Batch.ofFields (cursor : Nat) (fits : cursor < Nat.pow 2 64) (fields : List (String × String)) :
    Batch where
  reply := batchReply cursor (inBytes fields)
  cursor := cursor
  fields := fields
  understood := by
    rw [Reply.scanned, checked_batchReply]
    exact toScan_batchReply fits fields

/-- The last reply to a scan: a batch with cursor zero, or one that is not understood. -/
inductive Ending where
  | complete (batch : Batch) (last : batch.cursor = 0)
  | failed (reply : Reply) (problem : Problem) (bad : reply.scanned = .error problem)

namespace Ending

/-- The reply that comes last. -/
def reply : Ending → Reply
  | complete batch _ => batch.reply
  | failed reply _ _ => reply

/-- The fields that come with the last reply. -/
def fields : Ending → List (String × String)
  | complete batch _ => batch.fields
  | failed .. => []

/-- The failure that is delivered at the end, if there is one. -/
def failure : Ending → List Delivery
  | complete .. => []
  | failed _ problem _ => [.error problem.toStoreError]

end Ending

/-- The replies to a scan: batches that lead on, and a last reply. -/
structure Course where
  batches : List Batch
  leadOn : ∀ batch ∈ batches, batch.cursor ≠ 0
  ending : Ending

namespace Course

variable (course : Course)

/-- The replies as they come. -/
def replies : List Reply := course.batches.map Batch.reply ++ [course.ending.reply]

/-- The cursors to scan from: zero, and then that of each reply but the last. -/
def cursors : List Nat := 0 :: course.batches.map Batch.cursor

/-- The fields in the order in which they come. -/
def fields : List (String × String) :=
  course.batches.flatMap Batch.fields ++ course.ending.fields

end Course

/-! ## One reply -/

section Replies

variable {σ : Type} {serve : (command : Command) → σ → ReplyTo command × σ} {s s' : σ}
  {mark : Mark} {reply : Reply}

/-- What becomes of a fetch when a reply comes. -/
theorem fill_reply (limit : Nat)
    (served : serve (.hscan mark.key mark.cursor mark.count) s = (reply, s')) :
    converseWith serve (fill (limit + 1) mark) s =
      match reply.scanned with
      | .error problem => (.error problem.toStoreError, s')
      | .ok (cursor, flat) =>
        let next := { mark with cursor := cursor, seen := (unseen mark.seen flat).2 }
        if cursor = 0 then (.ok ((unseen mark.seen flat).1, none), s')
        else if (unseen mark.seen flat).1.isEmpty then converseWith serve (fill limit next) s'
        else (.ok ((unseen mark.seen flat).1, some next), s') := by
  rw [fill, converse_send_eq, served, Reply.scanned]
  cases reply.checked with
  | error problem => rfl
  | ok reply =>
    simp only [Except.bind]
    rw [converse_bind]
    cases reply.toScan with
    | error problem => rfl
    | ok part =>
      show converseWith serve (if part.1 = 0 then _ else if _ then _ else _) s' = _
      simp only
      split
      · rfl
      · split <;> rfl

/-- A fetch that gets a batch ends with what is new in it, or goes on when there is nothing. -/
theorem fill_batch (limit : Nat) {batch : Batch}
    (served : serve (.hscan mark.key mark.cursor mark.count) s = (batch.reply, s')) :
    converseWith serve (fill (limit + 1) mark) s =
      let next := { mark with cursor := batch.cursor, seen := seenAfter mark.seen batch.fields }
      if batch.cursor = 0 then (.ok ((firsts mark.seen batch.fields).map Prod.snd, none), s')
      else if (firsts mark.seen batch.fields).map Prod.snd = [] then
        converseWith serve (fill limit next) s'
      else (.ok ((firsts mark.seen batch.fields).map Prod.snd, some next), s') := by
  rw [fill_reply limit served, batch.understood]
  simp only [unseen_eq, List.isEmpty_iff]

end Replies

/-! ## What is answered to a fetch -/

section Answers

variable {σ : Type} (serve : (command : Command) → σ → ReplyTo command × σ)

/-- What the server answers when a scan goes on from a mark, in how many replies: a failure, the end
of the hash, or a field not seen before.  A batch without such a field leads on to the next one. -/
inductive Scanned : Mark → σ → (replies : Nat) →
    Except (Cursor.Fault String) (Cursor.Page Mark String) → σ → Prop where
  | failed {mark : Mark} {s s' : σ} {reply : Reply} {problem : Problem}
      (served : serve (.hscan mark.key mark.cursor mark.count) s = (reply, s'))
      (bad : reply.scanned = .error problem) :
      Scanned mark s 1 (.error { error := problem.toStoreError }) s'
  | last {mark : Mark} {s s' : σ} {reply : Reply} {flat : List String}
      (served : serve (.hscan mark.key mark.cursor mark.count) s = (reply, s'))
      (understood : reply.scanned = .ok (0, flat)) :
      Scanned mark s 1 (.ok ((unseen mark.seen flat).1, none)) s'
  | found {mark : Mark} {s s' : σ} {reply : Reply} {cursor : Nat} {flat : List String}
      (served : serve (.hscan mark.key mark.cursor mark.count) s = (reply, s'))
      (understood : reply.scanned = .ok (cursor, flat)) (goesOn : cursor ≠ 0)
      (new : (unseen mark.seen flat).1 ≠ []) :
      Scanned mark s 1 (.ok ((unseen mark.seen flat).1,
        some { mark with cursor := cursor, seen := (unseen mark.seen flat).2 })) s'
  | further {mark : Mark} {s s' s'' : σ} {reply : Reply} {cursor replies : Nat}
      {flat : List String} {result : Except (Cursor.Fault String) (Cursor.Page Mark String)}
      (served : serve (.hscan mark.key mark.cursor mark.count) s = (reply, s'))
      (understood : reply.scanned = .ok (cursor, flat)) (goesOn : cursor ≠ 0)
      (nothing : (unseen mark.seen flat).1 = [])
      (others : Scanned { mark with cursor := cursor, seen := (unseen mark.seen flat).2 } s' replies
        result s'') :
      Scanned mark s (replies + 1) result s''

/-- What the server answers when a page is fetched, after however many replies. -/
def Answers (mark : Mark) (s : σ) (result : Except (Cursor.Fault String) (Cursor.Page Mark String))
    (s' : σ) : Prop := ∃ replies, Scanned serve mark s replies result s'

/-- The number of commands that a fetch may send is enough for every scan that comes to an end. -/
def Suffices (bound : σ → String → Nat) : Prop := ∀ mark s replies result s',
  Scanned serve mark s replies result s' → replies ≤ bound s mark.key

variable {serve}

/-- A page is fetched as the server answers, when it may send a command for each reply. -/
theorem Scanned.heeded {mark : Mark} {s s' : σ} {replies : Nat}
    {result : Except (Cursor.Fault String) (Cursor.Page Mark String)}
    (scanned : Scanned serve mark s replies result s') :
    ∀ {limit : Nat}, replies ≤ limit →
      Cursor.atOnce (fun mark s => converseWith serve (fill limit mark) s) mark s =
        (result, s') := by
  induction scanned with
  | @failed mark s s' reply problem served bad =>
    intro limit enough
    obtain ⟨limit, rfl⟩ := Nat.exists_eq_add_of_le' enough
    have filled := fill_reply limit served
    rw [bad] at filled
    exact Cursor.atOnce_of_error filled
  | @last mark s s' reply flat served understood =>
    intro limit enough
    obtain ⟨limit, rfl⟩ := Nat.exists_eq_add_of_le' enough
    rw [Cursor.atOnce_eq_ok, fill_reply limit served, understood]
    exact if_pos rfl
  | @found mark s s' reply cursor flat served understood goesOn new =>
    intro limit enough
    obtain ⟨limit, rfl⟩ := Nat.exists_eq_add_of_le' enough
    rw [Cursor.atOnce_eq_ok, fill_reply limit served, understood]
    simp only [if_neg goesOn, List.isEmpty_iff, if_neg new]
  | @further mark s s' s'' reply cursor replies flat result served understood goesOn nothing others
      ih =>
    intro limit enough
    obtain ⟨limit, rfl⟩ := Nat.exists_eq_add_of_le' (Nat.le_of_add_left_le enough)
    rw [Cursor.atOnce, fill_reply limit served, understood]
    simp only [if_neg goesOn, List.isEmpty_iff, if_pos nothing]
    exact ih (Nat.le_of_succ_le_succ enough)

end Answers

/-! ## Replies that wait in a server -/

/-- The server after scans of a hash from some cursors, with other replies waiting. -/
def Server.scannedFrom (server : Server) (key : String) (count : Nat) (cursors : List Nat)
    (waiting : List Reply) : Server :=
  { server with
    queued := waiting
    received := (cursors.map fun cursor => .hscan key cursor count).reverse ++ server.received }

section Waiting

variable {server : Server} {reply : Reply} {waiting later : List Reply}

theorem serve_waiting (mark : Mark) (queued : server.queued = reply :: waiting) :
    server.serve (.hscan mark.key mark.cursor mark.count) =
      (reply, server.scannedFrom mark.key mark.count [mark.cursor] waiting) := by
  rw [Server.serve, queued]
  rfl

theorem scannedFrom_scannedFrom (key : String) (count cursor : Nat) (cursors : List Nat) :
    (server.scannedFrom key count [cursor] waiting).scannedFrom key count cursors later =
      server.scannedFrom key count (cursor :: cursors) later := by
  simp only [Server.scannedFrom, List.map_cons, List.map_nil, List.reverse_cons, List.reverse_nil,
    List.nil_append, List.append_assoc]

theorem length_le_weights (replies : List Reply) : replies.length ≤ weights replies := by
  induction replies with
  | nil => exact Nat.le_refl 0
  | cons reply replies ih =>
    have one : 0 < reply.weight := by cases reply <;> simp [Reply.weight]
    rw [List.length_cons, weights]
    omega

/-- Once there are enough of them, the number of commands that a fetch may send does not matter. -/
theorem fill_enough (ending : Ending) (batches : List Batch) :
    ∀ {server : Server} {mark : Mark} {limit limit' : Nat},
      server.queued = batches.map Batch.reply ++ ending.reply :: later →
      batches.length < limit → batches.length < limit' →
      converseWith Server.serve (fill limit mark) server =
        converseWith Server.serve (fill limit' mark) server := by
  induction batches with
  | nil =>
    intro server mark limit limit' queued enough enough'
    obtain ⟨limit, rfl⟩ : ∃ fewer, limit = fewer + 1 := ⟨limit - 1, by omega⟩
    obtain ⟨limit', rfl⟩ : ∃ fewer, limit' = fewer + 1 := ⟨limit' - 1, by omega⟩
    have served := serve_waiting mark queued
    cases ending with
    | complete batch last =>
      rw [fill_batch limit served, fill_batch limit' served]
      simp only [if_pos last]
    | failed reply problem bad =>
      rw [fill_reply limit served, fill_reply limit' served, Ending.reply, bad]
  | cons batch batches ih =>
    intro server mark limit limit' queued enough enough'
    rw [List.length_cons] at enough enough'
    obtain ⟨limit, rfl⟩ : ∃ fewer, limit = fewer + 1 := ⟨limit - 1, by omega⟩
    obtain ⟨limit', rfl⟩ : ∃ fewer, limit' = fewer + 1 := ⟨limit' - 1, by omega⟩
    rw [List.map_cons, List.cons_append] at queued
    have served := serve_waiting mark queued
    have fewer : batches.length < limit := by omega
    have fewer' : batches.length < limit' := by omega
    have waiting : (server.scannedFrom mark.key mark.count [mark.cursor]
        (batches.map Batch.reply ++ ending.reply :: later)).queued =
          batches.map Batch.reply ++ ending.reply :: later := rfl
    rw [fill_batch limit served, fill_batch limit' served]
    simp only [ih waiting fewer fewer']

/-- The commands that a fetch may send are enough for all replies that wait. -/
theorem length_lt_scanBound {ending : Ending} {batches : List Batch}
    (queued : server.queued = batches.map Batch.reply ++ ending.reply :: later) (key : String) :
    batches.length < server.scanBound key := by
  have few := length_le_weights server.queued
  have waiting := congrArg List.length queued
  rw [List.length_append, List.length_map, List.length_cons] at waiting
  unfold Server.scanBound
  omega

end Waiting

/-! ## Advancing past a reply -/

/-- Fetches a page from the plain server. -/
def fetchPlain : Mark → Server → Except (Cursor.Fault String) (Cursor.Page Mark String) × Server :=
  Cursor.atOnce fun mark server =>
    converseWith Server.serve (fill (server.scanBound mark.key) mark) server

theorem feed_next (setup : StoreSetup) : (store setup).feed.next = Cursor.next fetchPlain := rfl

end Redis

section Advancing

variable {σ μ δ : Type} {fetch : μ → σ → Except (Cursor.Fault δ) (Cursor.Page μ δ) × σ}
  {mark mark' : μ} {s s' : σ} {current : Option (Except StoreError δ)}

/-- A page that is the last or has elements is as good as fetched. -/
theorem Cursor.next_fetched {page : List δ} {next : Option μ}
    (fetched : fetch mark s = (.ok (page, next), s')) (fruitful : page = [] → next = none) :
    Cursor.next fetch { mark := some mark, current := current } s =
      Cursor.next fetch { mark := next, buffer := page, current := current } s' := by
  cases page with
  | nil =>
    obtain rfl := fruitful rfl
    simp [Cursor.next, fetched, advance]
  | cons element rest => simp [Cursor.next, fetched, advance]

/-- When two fetches come to the same, so do the advances. -/
theorem Cursor.next_congr (alike : fetch mark s = fetch mark' s') :
    Cursor.next fetch { mark := some mark, current := current } s =
      Cursor.next fetch { mark := some mark', current := current } s' := by
  simp [Cursor.next, alike]

end Advancing

namespace Redis

section Course

variable (setup : StoreSetup) {key : String} {count : Nat} {server : Server} {later : List Reply}

/-- An advance that is replied with a batch goes on with what is new in it. -/
theorem next_batch {ending : Ending} {batch : Batch} {batches : List Batch}
    (leadsOn : batch.cursor ≠ 0)
    (queued : server.queued = batch.reply :: (batches.map Batch.reply ++ ending.reply :: later))
    (cursor : Nat) (seen : List String) (current : Option (Except StoreError String)) :
    (store setup).feed.next { mark := some ⟨key, count, cursor, seen⟩, current := current } server =
      (store setup).feed.next
        { mark := some ⟨key, count, batch.cursor, seenAfter seen batch.fields⟩
          buffer := (firsts seen batch.fields).map Prod.snd, current := current }
        (server.scannedFrom key count [cursor]
          (batches.map Batch.reply ++ ending.reply :: later)) := by
  obtain ⟨limit, bound⟩ : ∃ limit, server.scanBound key = limit + 1 :=
    ⟨_, (Nat.succ_pred_eq_of_pos (Nat.zero_lt_succ _)).symm⟩
  have fetched := fill_batch limit (serve_waiting ⟨key, count, cursor, seen⟩ queued)
  simp only [if_neg leadsOn] at fetched
  rw [feed_next]
  by_cases nothing : (firsts seen batch.fields).map Prod.snd = []
  · -- there is nothing new, and the fetch itself goes on; so would one from the next cursor
    rw [if_pos nothing] at fetched
    rw [nothing]
    refine Cursor.next_congr ?_
    have enough : (batch :: batches).length < server.scanBound key := length_lt_scanBound queued key
    rw [bound, List.length_cons] at enough
    have fewer := Nat.lt_of_succ_lt_succ enough
    rw [fetchPlain, Cursor.atOnce, Cursor.atOnce, bound, fetched]
    exact congrArg (Prod.map _ id)
      (fill_enough ending batches rfl fewer (length_lt_scanBound rfl key))
  · rw [if_neg nothing] at fetched
    refine Cursor.next_fetched ?_ fun empty => absurd empty nothing
    rw [fetchPlain, Cursor.atOnce_eq_ok, bound]
    exact fetched

/-- An advance that is replied with the last batch goes on with what is new in it, and fetches no
more. -/
theorem next_last {batch : Batch} (last : batch.cursor = 0)
    (queued : server.queued = batch.reply :: later) (cursor : Nat) (seen : List String)
    (current : Option (Except StoreError String)) :
    (store setup).feed.next { mark := some ⟨key, count, cursor, seen⟩, current := current } server =
      (store setup).feed.next
        { mark := none, buffer := (firsts seen batch.fields).map Prod.snd, current := current }
        (server.scannedFrom key count [cursor] later) := by
  have fetched := fill_batch (server.scanBound key - 1)
    (serve_waiting ⟨key, count, cursor, seen⟩ queued)
  rw [if_pos last] at fetched
  have page : fetchPlain ⟨key, count, cursor, seen⟩ server = _ := Cursor.atOnce_eq_ok.2 fetched
  exact Cursor.next_fetched page fun _ => rfl

/-- An advance that is replied with a failure reaches it. -/
theorem next_failed {problem : Problem} {reply : Reply} (bad : reply.scanned = .error problem)
    (queued : server.queued = reply :: later) (cursor : Nat) (seen : List String)
    (current : Option (Except StoreError String)) :
    (store setup).feed.next { mark := some ⟨key, count, cursor, seen⟩, current := current } server =
      (true, { mark := none, current := some (.error problem.toStoreError) },
        server.scannedFrom key count [cursor] later) := by
  have fetched := fill_reply (server.scanBound key - 1)
    (serve_waiting ⟨key, count, cursor, seen⟩ queued)
  rw [bad] at fetched
  have failed : fetchPlain ⟨key, count, cursor, seen⟩ server = _ := Cursor.atOnce_of_error fetched
  simp [feed_next, Cursor.next, failed]

/-- **Whatever is replied to a scan, it delivers what is new in the batches, and then the failure,
if there is one.** -/
theorem drains_replies (ending : Ending) (batches : List Batch) :
    ∀ {server : Server} (cursor : Nat) (seen : List String)
      (current : Option (Except StoreError String)),
      (∀ batch ∈ batches, batch.cursor ≠ 0) →
      server.queued = batches.map Batch.reply ++ ending.reply :: later →
      (store setup).feed.Drains
        { mark := some ⟨key, count, cursor, seen⟩, current := current } server
        (((firsts seen (batches.flatMap Batch.fields ++ ending.fields)).map Prod.snd).map decode ++
          ending.failure)
        { mark := none }
        (server.scannedFrom key count (cursor :: batches.map Batch.cursor) later) := by
  induction batches with
  | nil =>
    intro server cursor seen current _ queued
    cases ending with
    | complete batch last =>
      refine Feed.Drains.congr ?_ (next_last setup last queued cursor seen current)
      exact Cursor.drains_buffer (fun _ => .ended rfl) _ current
    | failed reply problem bad =>
      exact .took (next_failed setup bad queued cursor seen current) rfl (.ended rfl)
  | cons batch batches ih =>
    intro server cursor seen current leadOn queued
    have leadsOn := leadOn batch List.mem_cons_self
    have others := fun other member => leadOn other (List.mem_cons_of_mem batch member)
    refine Feed.Drains.congr ?_ (next_batch setup leadsOn queued cursor seen current)
    have onward := fun current => ih batch.cursor (seenAfter seen batch.fields) current others
      (rfl : (server.scannedFrom key count [cursor]
        (batches.map Batch.reply ++ ending.reply :: later)).queued = _)
    have whole := Cursor.drains_buffer onward ((firsts seen batch.fields).map Prod.snd) current
    rw [scannedFrom_scannedFrom] at whole
    rw [List.flatMap_cons, List.append_assoc, firsts_append, List.map_append, List.map_append,
      List.append_assoc]
    exact whole

end Course

/-- **A listing of a hash delivers every field once, with the value with which it first came, in
the order in which the fields came**, whatever the hash is called and whatever the replies: it sends
as many commands as there are replies to the scan, each with the cursor of the reply before it; a
reply that is a failure is delivered once, behind everything that came before it; and afterwards
nothing is reached and no command is sent any more. -/
theorem scan_delivers_firsts (setup : StoreSetup) (user : String) (server : Server)
    (course : Course) (later : List Reply) :
    ∃ start final, (store setup).serve (.readAll user) server = (.ok start, server) ∧
      (store setup).feed.Drains start { server with queued := course.replies ++ later }
        ((firstValues course.fields).map decode ++ course.ending.failure) final
        (server.scannedFrom (setup.userKey user) setup.scanCount course.cursors later) ∧
      course.cursors.length = course.replies.length ∧
      ∀ s, (store setup).feed.next final s = (false, final, s) := by
  let mark : Mark := { key := setup.userKey user, count := setup.scanCount }
  refine ⟨{ mark := some mark }, { mark := none }, rfl, ?_, ?_, fun _ => rfl⟩
  · rw [← values_firsts]
    refine drains_replies setup course.ending course.batches 0 [] none course.leadOn ?_
    rw [Course.replies, List.append_assoc]
    rfl
  · simp [Course.cursors, Course.replies]

/-- A field that comes again, with another value, changes nothing, and neither does a batch without
fields. -/
example :
    let course : Course :=
      { batches :=
          [.ofFields 7 (by decide) [("p", "old"), ("q", "text"), ("p", "new")],
            .ofFields 9 (by decide) []]
        leadOn := by simp [Batch.ofFields]
        ending := .complete (.ofFields 0 (by decide) [("r", "last"), ("q", "other")]) rfl }
    firstValues course.fields = ["old", "text", "last"] ∧ course.cursors = [0, 7, 9] := by
  decide

end Redis

end PostStore
