import Mathlib.Algebra.Group.Nat.Defs
import PostStore.Postgres.Store
/-!
# Rows stand for posts

A column of a time holds eight bytes in two's complement, which is room for every instant of the
time line.  So the row of a post is read as the post, as long as its times are whole microseconds
outside leap seconds, which is what the columns can tell.
-/

namespace PostStore.Postgres

/-! ## Times -/

/-- A time that a column can tell. -/
structure Tellable (t : Instant) : Prop where
  whole : t.WholeMicros
  plain : t.nanos < 1000000000

/-- A time that a column can tell is known from its microseconds. -/
theorem Tellable.ofMicros? {t : Instant} (tellable : Tellable t) :
    Instant.ofMicros? t.toMicros = some t := by
  obtain ⟨whole, plain⟩ := tellable
  unfold Instant.WholeMicros at whole
  have second : t.toMicros / 1000000 = t.seconds := by
    unfold Instant.toMicros
    omega
  have fraction : (t.toMicros % 1000000).toNat * 1000 = t.nanos := by
    unfold Instant.toMicros
    omega
  rw [Instant.ofMicros?, second, fraction, Instant.ofParts?_parts]

/-- The number in bytes, most significant first, is the number that they were made of, as far as
they have room for it. -/
theorem value_bytes (count : Nat) :
    ∀ n : Nat, ((List.range count).map fun i => UInt8.ofNat (n / 256 ^ (count - 1 - i) % 256)).foldl
      (fun value b => value * 256 + b.toNat) 0 = n % 256 ^ count := by
  induction count with
  | zero => intro n; simp [Nat.mod_one]
  | succ count ih =>
    intro n
    -- the last byte is the remainder, and those before it are the bytes of the quotient
    have front : (List.range count).map
        (fun i => UInt8.ofNat (n / 256 ^ (count + 1 - 1 - i) % 256)) =
          (List.range count).map fun i => UInt8.ofNat (n / 256 / 256 ^ (count - 1 - i) % 256) := by
      refine List.map_congr_left fun i member => ?_
      have below := List.mem_range.1 member
      have power : 256 ^ (count + 1 - 1 - i) = 256 * 256 ^ (count - 1 - i) := by
        rw [← Nat.pow_succ']
        congr 1
        omega
      rw [power, Nat.div_div_eq_div_mul]
    have last : n / 256 ^ (count + 1 - 1 - count) = n := by
      rw [Nat.add_sub_cancel, Nat.sub_self, Nat.pow_zero, Nat.div_one]
    have byte : (UInt8.ofNat (n % 256)).toNat = n % 256 :=
      UInt8.toNat_ofNat_of_lt' (Nat.mod_lt n (by decide))
    rw [List.range_succ, List.map_append, List.foldl_append, front, ih]
    simp only [List.map_cons, List.map_nil, List.foldl_cons, List.foldl_nil, last, byte]
    rw [Nat.pow_succ', Nat.mod_mul]
    omega

/-- The time in the column of a time that a column can tell. -/
theorem time?_timeColumn {t : Instant} (tellable : Tellable t) :
    Column.time? (timeColumn t.toMicros) = some t := by
  obtain ⟨first, last⟩ := t.bounded
  have fine := tellable.plain
  unfold Instant.firstSecond at first
  unfold Instant.lastSecond at last
  have low : -9223372036854775808 ≤ t.toMicros - epochSeconds * 1000000 := by
    unfold Instant.toMicros epochSeconds
    omega
  have high : t.toMicros - epochSeconds * 1000000 < 9223372036854775808 := by
    unfold Instant.toMicros epochSeconds
    omega
  -- the offset has 63 bits and a sign, so its residue modulo 64 bits tells it
  generalize span : t.toMicros - epochSeconds * 1000000 = offset at low high
  have micros : offset + epochSeconds * 1000000 = t.toMicros := by omega
  have bytes : timeColumn t.toMicros = some ((List.range 8).map fun i =>
      UInt8.ofNat ((offset % 18446744073709551616).toNat / 256 ^ (8 - 1 - i) % 256)) := by
    rw [timeColumn, span]
    rfl
  have signed : signedOfBytes ((List.range 8).map fun i =>
      UInt8.ofNat ((offset % 18446744073709551616).toNat / 256 ^ (8 - 1 - i) % 256)) = offset := by
    have value := value_bytes 8 (offset % 18446744073709551616).toNat
    simp only [signedOfBytes, value, List.length_map, List.length_range]
    show (if (offset % 18446744073709551616).toNat % 18446744073709551616 < 9223372036854775808 then
      (((offset % 18446744073709551616).toNat % 18446744073709551616 : Nat) : Int)
      else (((offset % 18446744073709551616).toNat % 18446744073709551616 : Nat) : Int) -
        18446744073709551616) = offset
    split <;> omega
  rw [bytes, Column.time?, Option.bind_some, List.length_map, List.length_range, if_pos rfl, signed,
    micros, tellable.ofMicros?]

/-! ## Posts -/

theorem text?_textColumn (text : String) : Column.text? (textColumn text) = some text :=
  Text.ofUtf8?_utf8 text

/-- A post that a row can tell. -/
structure Keepable (post : Post) : Prop where
  created : Tellable post.createdAt
  updated : Tellable post.updatedAt

/-- **The row of a post is read as the post.** -/
theorem decode_ofPost {post : Post} (keepable : Keepable post) :
    decode (Row.ofPost post) = .ok post := by
  have read : (Row.ofPost post).toPost = .ok post := by
    simp only [Row.toPost, Row.ofPost, text?_textColumn, time?_timeColumn keepable.created,
      time?_timeColumn keepable.updated]
    rfl
  rw [decode, read]
  rfl

end PostStore.Postgres
