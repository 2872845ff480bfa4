/-
Linear arrays, `linear_read` and `linear_write` of `src/src/raid/raid.c`.

The first member of a linear array holds the sectors below `2 * rdev_size`, and the
second one the others. A request is sorted by its start and its length in kilobytes
into one for the first member, one for the second, or one for each of them. The two
functions do it with the same code.

The members are ideal disks, one byte for each address. `linear_maps_iff` says which
requests go to the right sectors, and `linear_reads_last` that such requests make the
array one linear store.
-/
import CsBoot.Lib.RangeStore
import CsBoot.Raid.Superblock

set_option autoImplicit false

namespace CsBoot.Raid

open RangeStore

/-! ## The members -/

/-- The contents of `disk[0]`, `disk[1]` and so on, by byte addresses. -/
abbrev Members : Type := ℕ → ℕ → UInt8

/-- One call of a member's `read` or `write`: `n_byte` bytes at the sector `start`, from
or to `&buf[off]`. -/
structure Piece where
  disk : ℕ
  start : ℕ
  n_byte : ℕ
  off : ℕ

/-- `mddev->disk[..]->read(mddev->disk[..],start,n_byte,&buf[off])` -/
def member_read (m : Members) (buf : ℕ → UInt8) (p : Piece) : ℕ → UInt8 :=
  splice buf p.off p.n_byte fun i => m p.disk (512 * p.start + i)

/-- `mddev->disk[..]->write(mddev->disk[..],start,n_byte,&buf[off])` -/
def member_write (buf : ℕ → UInt8) (m : Members) (p : Piece) : Members :=
  Function.update m p.disk (splice (m p.disk) (512 * p.start) p.n_byte fun i => buf (p.off + i))

/-! ## `linear_read` and `linear_write` -/

/-- `c1`: the bytes up to the end of the first member, in 32 bits. -/
def linear_c1 (rdev_size start : ℕ) : ℕ :=
  (2 * rdev_size % 2 ^ 32 + (2 ^ 64 - start)) % 2 ^ 64 % 2 ^ 32 * Ide.IDE_SECTOR_SIZE % 2 ^ 32

/-- The calls to the members, the same in both functions. `sb->rdev_size<<1` has 32
bits. -/
def linear_pieces (rdev_size start n_byte : ℕ) : List Piece :=
  if start >>> 1 + n_byte >>> 10 ≤ rdev_size then [⟨0, start, n_byte, 0⟩]
  else if start >>> 1 ≥ rdev_size then [⟨1, start - 2 * rdev_size % 2 ^ 32, n_byte, 0⟩]
  else
    let c1 := linear_c1 rdev_size start
    let c2 := (n_byte + (2 ^ 32 - c1)) % 2 ^ 32
    [⟨0, start, c1, 0⟩, ⟨1, 0, c2, c1⟩]

/-- `linear_read`: the buffer afterwards. -/
def linear_read (rdev_size : ℕ) (m : Members) (start n_byte : ℕ) (buf : ℕ → UInt8) : ℕ → UInt8 :=
  (linear_pieces rdev_size start n_byte).foldl (member_read m) buf

/-- `linear_write`: the members afterwards. -/
def linear_write (rdev_size : ℕ) (m : Members) (start n_byte : ℕ) (buf : ℕ → UInt8) : Members :=
  (linear_pieces rdev_size start n_byte).foldl (member_write buf) m

/-! ## Where a sector is -/

/-- The place of a sector of the array whose first member holds `R` sectors: the member,
and the sector there. -/
def home (R x : ℕ) : ℕ × ℕ := if x < R then (0, x) else (1, x - R)

theorem home_inj {R x y : ℕ} (h : home R x = home R y) : x = y := by
  unfold home at h
  split at h <;> split at h <;> simp only [Prod.mk.injEq] at h <;> omega

/-- The calls move sector `i` of the request from or to sector `k` of the member `d`. -/
def Moves (ps : List Piece) (i d k : ℕ) : Prop :=
  ∃ p ∈ ps, d = p.disk ∧ ∃ j < p.n_byte / 512, i = p.off / 512 + j ∧ k = p.start + j

/-- The calls move every sector of a request from or to its place, and no other. -/
def MapsRight (R start c : ℕ) (ps : List Piece) : Prop :=
  ∀ i d k, Moves ps i d k ↔ i < c ∧ home R (start + i) = (d, k)

/-- The request ends in the first member, or its end lies behind that in whole
kilobytes. A request that begins in the second member needs an `rdev_size` below
`2^31` as well. -/
def LinearOk (rdev_size start c : ℕ) : Prop :=
  start + c ≤ 2 * rdev_size ∨
    (rdev_size < start / 2 + c / 2 ∧ (start < 2 * rdev_size ∨ rdev_size < 2 ^ 31))

instance (rdev_size start c : ℕ) : Decidable (LinearOk rdev_size start c) :=
  inferInstanceAs (Decidable (_ ∨ _))

/-! ## The three cases -/

theorem moves_one {d₀ s₀ c i d k : ℕ} :
    Moves [⟨d₀, s₀, 512 * c, 0⟩] i d k ↔ d = d₀ ∧ i < c ∧ k = s₀ + i := by
  have hdiv : 512 * c / 512 = c := Nat.mul_div_cancel_left c (by omega)
  simp only [Moves, List.mem_singleton, exists_eq_left, hdiv, Nat.zero_div, Nat.zero_add]
  constructor
  · rintro ⟨hd, j, hj, rfl, hk⟩
    exact ⟨hd, hj, hk⟩
  · rintro ⟨hd, hi, hk⟩
    exact ⟨hd, i, hi, rfl, hk⟩

theorem moves_two {s₀ a b i d k : ℕ} :
    Moves [⟨0, s₀, 512 * a, 0⟩, ⟨1, 0, 512 * b, 512 * a⟩] i d k ↔
      (d = 0 ∧ i < a ∧ k = s₀ + i) ∨ (d = 1 ∧ a ≤ i ∧ i < a + b ∧ k = i - a) := by
  have hdiv : ∀ c, 512 * c / 512 = c := fun c => Nat.mul_div_cancel_left c (by omega)
  simp only [Moves, List.mem_cons, List.not_mem_nil, or_false, exists_eq_or_imp, exists_eq_left,
    hdiv, Nat.zero_div, Nat.zero_add]
  constructor
  · rintro (⟨hd, j, hj, rfl, hk⟩ | ⟨hd, j, hj, rfl, hk⟩)
    · exact .inl ⟨hd, hj, hk⟩
    · exact .inr ⟨hd, by omega, by omega, by omega⟩
  · rintro (⟨hd, hi, hk⟩ | ⟨hd, hai, hi, hk⟩)
    · exact .inl ⟨hd, i, hi, rfl, hk⟩
    · exact .inr ⟨hd, i - a, by omega, by omega, hk⟩

section Cases

variable {rdev_size start c : ℕ}

theorem linear_pieces_first (h : start / 2 + c / 2 ≤ rdev_size) :
    linear_pieces rdev_size start (512 * c) = [⟨0, start, 512 * c, 0⟩] := by
  unfold linear_pieces
  rw [if_pos]
  simp only [Nat.shiftRight_eq_div_pow]
  omega

theorem linear_pieces_second (h : rdev_size < start / 2 + c / 2) (h' : rdev_size ≤ start / 2) :
    linear_pieces rdev_size start (512 * c) =
      [⟨1, start - 2 * rdev_size % 2 ^ 32, 512 * c, 0⟩] := by
  unfold linear_pieces
  rw [if_neg, if_pos] <;> simp only [Nat.shiftRight_eq_div_pow] <;> omega

/-- A request for both members is cut at the end of the first, also where
`2 * rdev_size` does not fit 32 bits. -/
theorem linear_pieces_both (h : rdev_size < start / 2 + c / 2) (h' : start / 2 < rdev_size)
    (hr : rdev_size < 2 ^ 32) (hc : 512 * c < 2 ^ 32) :
    linear_pieces rdev_size start (512 * c) =
      [⟨0, start, 512 * (2 * rdev_size - start), 0⟩,
        ⟨1, 0, 512 * (start + c - 2 * rdev_size), 512 * (2 * rdev_size - start)⟩] := by
  have hc1 : linear_c1 rdev_size start = 512 * (2 * rdev_size - start) := by
    unfold linear_c1 Ide.IDE_SECTOR_SIZE
    omega
  have hc2 : (512 * c + (2 ^ 32 - 512 * (2 * rdev_size - start))) % 2 ^ 32 =
      512 * (start + c - 2 * rdev_size) := by
    omega
  unfold linear_pieces
  rw [if_neg, if_neg]
  · simp only [hc1, hc2]
  · simp only [Nat.shiftRight_eq_div_pow]
    omega
  · simp only [Nat.shiftRight_eq_div_pow]
    omega

theorem maps_first : MapsRight (2 * rdev_size) start c [⟨0, start, 512 * c, 0⟩] ↔
    c = 0 ∨ start + c ≤ 2 * rdev_size := by
  constructor
  · intro h
    by_contra hcon
    have hlast := ((h (c - 1) 0 (start + (c - 1))).mp (moves_one.mpr ⟨rfl, by omega, rfl⟩)).2
    unfold home at hlast
    split at hlast
    · omega
    · simp at hlast
  · intro h i d k
    rw [moves_one]
    unfold home
    split <;> simp only [Prod.mk.injEq] <;> omega

theorem maps_second (hs : rdev_size ≤ start / 2) (hr : rdev_size < 2 ^ 32) (hc : 0 < c) :
    MapsRight (2 * rdev_size) start c [⟨1, start - 2 * rdev_size % 2 ^ 32, 512 * c, 0⟩] ↔
      rdev_size < 2 ^ 31 := by
  constructor
  · intro h
    have hzero := ((h 0 1 (start - 2 * rdev_size % 2 ^ 32)).mp
      (moves_one.mpr ⟨rfl, hc, rfl⟩)).2
    unfold home at hzero
    rw [if_neg (by omega)] at hzero
    simp only [Prod.mk.injEq, true_and] at hzero
    omega
  · intro h i d k
    rw [moves_one]
    unfold home
    rw [if_neg (by omega)]
    simp only [Prod.mk.injEq]
    omega

theorem maps_both (h : 2 * rdev_size ≤ start + c) (h' : start ≤ 2 * rdev_size) :
    MapsRight (2 * rdev_size) start c
      [⟨0, start, 512 * (2 * rdev_size - start), 0⟩,
        ⟨1, 0, 512 * (start + c - 2 * rdev_size), 512 * (2 * rdev_size - start)⟩] := by
  intro i d k
  rw [moves_two]
  unfold home
  split <;> simp only [Prod.mk.injEq] <;> omega

/-- **A request goes to the right sectors exactly when it ends in the first member, or
behind it by whole kilobytes** (and `rdev_size` is below `2^31` where it begins in the
second member). -/
theorem linear_pieces_maps_iff (hr : rdev_size < 2 ^ 32) (hc : 0 < c) (hn : 512 * c < 2 ^ 32) :
    MapsRight (2 * rdev_size) start c (linear_pieces rdev_size start (512 * c)) ↔
      LinearOk rdev_size start c := by
  unfold LinearOk
  by_cases h1 : start / 2 + c / 2 ≤ rdev_size
  · rw [linear_pieces_first h1, maps_first]
    omega
  by_cases h2 : rdev_size ≤ start / 2
  · rw [linear_pieces_second (by omega) h2, maps_second h2 hr hc]
    omega
  · rw [linear_pieces_both (by omega) (by omega) hr hn]
    exact iff_of_true (maps_both (by omega) (by omega)) (by omega)

end Cases

/-! ## The array as one store -/

/-- The content of the array, by byte addresses. -/
def linear_view (rdev_size : ℕ) (m : Members) (x : ℕ) : UInt8 :=
  m (home (2 * rdev_size) (x / 512)).1 (512 * (home (2 * rdev_size) (x / 512)).2 + x % 512)

/-- The array as a device, on byte addresses. -/
def linear_device (rdev_size : ℕ) : Device Members UInt8 where
  read m pos len buf := linear_read rdev_size m (pos / 512) len buf
  write m w := linear_write rdev_size m (w.pos / 512) w.len w.data

/-- A call is for the sectors from `x` on, all of them in one member. -/
structure Piece.For (p : Piece) (R x c : ℕ) : Prop where
  len : p.n_byte = 512 * c
  place : ∀ j, j < c → home R (x + j) = (p.disk, p.start + j)

section Store

variable {rdev_size x c : ℕ} {p : Piece} (m : Members)

theorem view_of_place {j d k : ℕ} (h : home (2 * rdev_size) (x + j / 512) = (d, k + j / 512)) :
    linear_view rdev_size m (512 * x + j) = m d (512 * k + j) := by
  have hdiv : (512 * x + j) / 512 = x + j / 512 := by omega
  have haddr : 512 * (k + j / 512) + (512 * x + j) % 512 = 512 * k + j := by omega
  unfold linear_view
  rw [hdiv, h, haddr]

/-- What a member is read at is the content of the array. -/
theorem member_read_view (hp : p.For (2 * rdev_size) x c) {j : ℕ} (hj : j < p.n_byte) :
    m p.disk (512 * p.start + j) = linear_view rdev_size m (512 * x + j) := by
  have hlen := hp.len
  exact (view_of_place m (hp.place (j / 512) (by omega))).symm

/-- Writing to a member splices the content of the array. -/
theorem member_write_view (hp : p.For (2 * rdev_size) x c) (buf : ℕ → UInt8) :
    linear_view rdev_size (member_write buf m p) =
      splice (linear_view rdev_size m) (512 * x) p.n_byte fun i => buf (p.off + i) := by
  have hlen := hp.len
  funext y
  by_cases hy : 512 * x ≤ y ∧ y < 512 * x + p.n_byte
  · obtain ⟨j, rfl⟩ := Nat.exists_eq_add_of_le hy.1
    have hplace := hp.place (j / 512) (by omega)
    rw [view_of_place _ hplace, splice_add (by omega)]
    unfold member_write
    rw [Function.update_self, splice_add (by omega)]
  · rw [splice_outside (by omega)]
    unfold linear_view member_write
    by_cases hd : (home (2 * rdev_size) (y / 512)).1 = p.disk
    · rw [hd, Function.update_self, splice_outside]
      -- a sector of the call would be one of the array's sectors from `x` on
      by_contra hin
      set k := (home (2 * rdev_size) (y / 512)).2 with hk
      have hplace := hp.place (k - p.start) (by omega)
      have hsame : home (2 * rdev_size) (x + (k - p.start)) = home (2 * rdev_size) (y / 512) := by
        rw [hplace, ← hd]
        exact Prod.ext rfl (by simp only; omega)
      have := home_inj hsame
      omega
    · rw [Function.update_of_ne hd]

end Store

/-- What is asked of a request: whole sectors, and `LinearOk`. -/
def LinearRequest (rdev_size pos len : ℕ) : Prop :=
  ∃ start c, pos = 512 * start ∧ len = 512 * c ∧ 0 < c ∧ 512 * c < 2 ^ 32 ∧
    LinearOk rdev_size start c

/-- The calls for such a request: one, or two that follow each other. -/
theorem linear_pieces_for {rdev_size start c : ℕ} (hr : rdev_size < 2 ^ 32) (hc : 0 < c)
    (hn : 512 * c < 2 ^ 32) (hok : LinearOk rdev_size start c) :
    (∃ p : Piece, linear_pieces rdev_size start (512 * c) = [p] ∧ p.off = 0 ∧
      p.For (2 * rdev_size) start c) ∨
    (∃ p q : Piece, ∃ a b, linear_pieces rdev_size start (512 * c) = [p, q] ∧ a + b = c ∧
      p.off = 0 ∧ q.off = 512 * a ∧ p.For (2 * rdev_size) start a ∧
      q.For (2 * rdev_size) (start + a) b) := by
  unfold LinearOk at hok
  by_cases h1 : start / 2 + c / 2 ≤ rdev_size
  · refine .inl ⟨_, linear_pieces_first h1, rfl, rfl, fun j hj => ?_⟩
    unfold home
    rw [if_pos (by omega)]
  by_cases h2 : rdev_size ≤ start / 2
  · refine .inl ⟨_, linear_pieces_second (by omega) h2, rfl, rfl, fun j hj => ?_⟩
    unfold home
    rw [if_neg (by omega)]
    simp only [Prod.mk.injEq, true_and]
    omega
  · refine .inr ⟨_, _, 2 * rdev_size - start, start + c - 2 * rdev_size,
      linear_pieces_both (by omega) (by omega) hr hn, by omega, rfl, rfl, ⟨rfl, fun j hj => ?_⟩,
      ⟨rfl, fun j hj => ?_⟩⟩
    · unfold home
      rw [if_pos (by omega)]
    · unfold home
      rw [if_neg (by omega)]
      simp only [Prod.mk.injEq, true_and]
      omega

/-- The array is a store for such requests. -/
theorem linear_faithful {rdev_size : ℕ} (hr : rdev_size < 2 ^ 32) :
    Faithful (linear_device rdev_size) (fun _ => True) (linear_view rdev_size)
      (LinearRequest rdev_size) (fun _ => True) where
  covered _ _ := trivial
  keeps _ _ _ := trivial
  read := by
    rintro m _ _ buf i - ⟨start, c, rfl, rfl, hc, hn, hok⟩ hi
    have hdiv : 512 * start / 512 = start := Nat.mul_div_cancel_left _ (by omega)
    simp only [linear_device, linear_read, hdiv]
    -- a request is one piece of one member, or ends one member and begins the next
    rcases linear_pieces_for hr hc hn hok with
      ⟨p, hps, hoff, hp⟩ | ⟨p, q, a, b, hps, hab, hoff, hoff', hp, hq⟩
    · have hlen := hp.len
      rw [hps]
      simp only [List.foldl_cons, List.foldl_nil, member_read]
      rw [splice_inside (by omega) (by omega), member_read_view m hp (by omega), hoff, Nat.sub_zero]
    · have hlen := hp.len
      have hlen' := hq.len
      rw [hps]
      simp only [List.foldl_cons, List.foldl_nil, member_read]
      by_cases hia : i < 512 * a
      · rw [splice_outside (by omega), splice_inside (by omega) (by omega),
          member_read_view m hp (by omega), hoff, Nat.sub_zero]
      · rw [splice_inside (by omega) (by omega), member_read_view m hq (by omega), hoff']
        congr 1
        omega
  write := by
    rintro m ⟨_, _, buf⟩ x - ⟨start, c, rfl, rfl, hc, hn, hok⟩ -
    have hdiv : 512 * start / 512 = start := Nat.mul_div_cancel_left _ (by omega)
    simp only [linear_device, linear_write, hdiv]
    rcases linear_pieces_for hr hc hn hok with
      ⟨p, hps, hoff, hp⟩ | ⟨p, q, a, b, hps, hab, hoff, hoff', hp, hq⟩
    · rw [hps, List.foldl_cons, List.foldl_nil, member_write_view m hp, hp.len, hoff]
      simp only [Nat.zero_add]
    · have hcat : 512 * (start + a) = 512 * start + 512 * a := by omega
      have hsum : 512 * a + 512 * b = 512 * c := by omega
      rw [hps, List.foldl_cons, List.foldl_cons, List.foldl_nil, member_write_view _ hq,
        member_write_view m hp, hp.len, hq.len, hoff, hoff', hcat]
      simp only [Nat.zero_add]
      rw [splice_splice, hsum]

/-- **Linear arrays.** A request goes to the right sectors exactly when it is
`LinearOk`, and in a run of such requests every read returns what was last written. -/
theorem linear_maps_iff (rdev_size : ℕ) (hr : rdev_size < 2 ^ 32) :
    (∀ start c, 0 < c → 512 * c < 2 ^ 32 →
      (MapsRight (2 * rdev_size) start c (linear_pieces rdev_size start (512 * c)) ↔
        LinearOk rdev_size start c)) ∧
    ∀ (m : Members) (rs : List (Request UInt8)),
      (∀ r ∈ rs, LinearRequest rdev_size r.range.1 r.range.2) →
      ReadsLast (linear_device rdev_size) (linear_view rdev_size m) m [] rs :=
  ⟨fun _ _ hc hn => linear_pieces_maps_iff hr hc hn,
    fun _ rs hok => readsLast_of_view (linear_faithful hr) _ rs hok trivial fun _ _ => rfl⟩

theorem linear_maps_iff_one :
    (MapsRight (2 * 1) 1 2 (linear_pieces 1 1 (512 * 2)) ↔ LinearOk 1 1 2) ∧
    ReadsLast (linear_device 1) (linear_view 1 fun _ _ => 0) (fun _ _ => 0) []
      [.write ⟨512 * 1, 512 * 1, fun _ => 1⟩, .read (512 * 1) (512 * 1) fun _ => 0] := by
  have h := linear_maps_iff 1 (by decide)
  refine ⟨h.1 1 2 (by decide) (by decide), h.2 _ _ ?_⟩
  have hone : LinearRequest 1 (512 * 1) (512 * 1) :=
    ⟨1, 1, rfl, rfl, by decide, by decide, by decide⟩
  simpa [Request.range] using hone

/-- A member of two sectors: a request for the sectors 1 and 2 goes to the first member
as a whole, and the sector behind its end is used for the first of the second
member. -/
theorem linear_misses_boundary :
    ¬ MapsRight (2 * 1) 1 2 (linear_pieces 1 1 (512 * 2)) ∧
      Moves (linear_pieces 1 1 (512 * 2)) 1 0 2 := by
  have hmove : Moves (linear_pieces 1 1 (512 * 2)) 1 0 2 := by
    rw [linear_pieces_first (by omega), moves_one]
    omega
  refine ⟨fun h => ?_, hmove⟩
  have hplace := ((h 1 0 2).mp hmove).2
  simp [home] at hplace

end CsBoot.Raid
