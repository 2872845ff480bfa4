/-
What the VCTL store holds, and what the two walks do on an image that is well
formed.

An `Entry` is a string of bytes whose size field is its length. An image holds
a list of entries (`Image`): the magic, the number of entries, and the entries
one behind the other. On such an image `sys_get_vctl_entry` looks the type up in
the list, and the new image of `sys_save_vctl_entry` holds the list with the new
entry put in its place, less the entries for which there is no room
(`Keyed.putWithin`).
-/
import CsBoot.Lib.Keyed
import CsBoot.Sys.Vctl

set_option autoImplicit false

namespace CsBoot.Vctl

open ByteMem SkipBlocks Nor Ui Keyed

/-! ## Entries -/

/-- A word of a string of bytes. -/
def word (bytes : List UInt8) (i : ℕ) : ℕ := load32 (fun k => bytes.getD k 0) i

/-- `VCTL_ENTRY_T` and the data behind it, with its own size in its header. -/
structure Entry where
  bytes : List UInt8
  hdr_le : ENTRY_LEN ≤ bytes.length
  int : bytes.length < 2 ^ 31
  size_eq : word bytes 4 = bytes.length

/-- The type an entry is kept under. -/
def Entry.type (e : Entry) : ℕ := word e.bytes 8

/-- The number of bytes of an entry, its header included. -/
def Entry.len (e : Entry) : ℕ := e.bytes.length

theorem Entry.ext_bytes {e e' : Entry} (h : e.bytes = e'.bytes) : e = e' := by
  cases e
  cases e'
  simp_all

/-- The string lies at `a`. -/
def BytesAt (m : ByteMem) (a : ℕ) (l : List UInt8) : Prop :=
  ∀ i, i < l.length → m (a + i) = l.getD i 0

/-- The entries lie one behind the other from `a` on. -/
def Chain (m : ByteMem) : ℕ → List Entry → Prop
  | _, [] => True
  | a, e :: es => BytesAt m a e.bytes ∧ Chain m (a + e.len) es

/-- The image at `base` holds the entries. -/
structure Image (m : ByteMem) (base : ℕ) (es : List Entry) : Prop where
  magic : has_magic m base = true
  num : entry_num m base = es.length
  chain : Chain m (base + VCTL_HDR_SIZE) es

/-- The number of bytes in the image of the entries. -/
def image_size (es : List Entry) : ℕ := VCTL_HDR_SIZE + size Entry.len es

/-- A well-formed image: at most 128 entries, inside the sector. -/
structure WellFormed (A : Area) (m : ByteMem) (base : ℕ) (es : List Entry) : Prop extends
    Image m base es where
  num_le : es.length ≤ 128
  inside : image_size es ≤ A.vctl_size

/-- What the store holds: a well-formed image, or no entries and no magic. -/
structure Contents (A : Area) (m : ByteMem) (base : ℕ) (es : List Entry) : Prop where
  stored : Image m base es ∨ has_magic m base = false ∧ es = []
  num_le : es.length ≤ 128
  inside : image_size es ≤ A.vctl_size

theorem WellFormed.contents {A : Area} {m : ByteMem} {base : ℕ} {es : List Entry}
    (h : WellFormed A m base es) : Contents A m base es :=
  ⟨.inl h.toImage, h.num_le, h.inside⟩

section Bytes

variable {m m' : ByteMem} {a a' : ℕ} {l : List UInt8} {e : Entry} {es es' : List Entry}

theorem BytesAt.shift (h : BytesAt m a l)
    (heq : ∀ i, i < l.length → m' (a' + i) = m (a + i)) : BytesAt m' a' l :=
  fun i hi => (heq i hi).trans (h i hi)

theorem BytesAt.firstBytes_eq (h : BytesAt m a l) :
    firstBytes (fun i => m (a + i)) l.length = l := by
  apply List.ext_getElem
  · exact length_firstBytes _ _
  · intro i h₁ h₂
    simp only [firstBytes, List.getElem_map, List.getElem_range]
    simp [h i h₂, h₂]

/-- The words of an entry are read where it lies. -/
theorem BytesAt.word_eq (h : BytesAt m a l) {i : ℕ} (hi : i + 4 ≤ l.length)
    (ha : a + l.length ≤ W) : load32 m (a + i) = word l i := by
  apply load32_shift
  · omega
  · omega
  · intro k hk
    rw [Nat.add_assoc]
    exact h (i + k) (by omega)

theorem Entry.len_ge (e : Entry) : 20 ≤ e.len := e.hdr_le

theorem entry_size_of (h : BytesAt m a e.bytes) (ha : a + e.len ≤ W) : entry_size m a = e.len :=
  (h.word_eq (by have := e.len_ge; unfold Entry.len at this; omega) ha).trans e.size_eq

theorem entry_type_of (h : BytesAt m a e.bytes) (ha : a + e.len ≤ W) : entry_type m a = e.type :=
  h.word_eq (by have := e.len_ge; unfold Entry.len at this; omega) ha

theorem Chain.shift (h : Chain m a es)
    (heq : ∀ i, i < size Entry.len es → m' (a' + i) = m (a + i)) : Chain m' a' es := by
  induction es generalizing a a' with
  | nil => trivial
  | cons e es ih =>
      rw [size_cons] at heq
      refine ⟨h.1.shift fun i hi => heq i (Nat.lt_add_right _ hi), ih h.2 fun i hi => ?_⟩
      rw [Nat.add_assoc, Nat.add_assoc]
      exact heq _ (by omega)

theorem Chain.append (h : Chain m a es) (h' : Chain m (a + size Entry.len es) es') :
    Chain m a (es ++ es') := by
  induction es generalizing a with
  | nil => simpa using h'
  | cons e es ih =>
      refine ⟨h.1, ih h.2 ?_⟩
      rwa [Nat.add_assoc, ← size_cons]

/-- The image of the entries, wherever its bytes are. -/
theorem Image.shift (h : Image m a es) (ha : a + image_size es ≤ W) (ha' : a' + image_size es ≤ W)
    (heq : ∀ i, i < image_size es → m' (a' + i) = m (a + i)) : Image m' a' es := by
  unfold image_size VCTL_HDR_SIZE at *
  constructor
  · have hm := h.magic
    unfold has_magic VCTL_MAGIC_SIZE at hm ⊢
    rwa [firstBytes_congr fun i hi => heq i (by omega)]
  · rw [← h.num]
    unfold entry_num
    apply load32_shift
    · omega
    · omega
    · intro i hi
      rw [Nat.add_assoc, Nat.add_assoc]
      exact heq _ (by omega)
  · refine h.chain.shift fun i hi => ?_
    unfold VCTL_HDR_SIZE
    rw [Nat.add_assoc, Nat.add_assoc]
    exact heq _ (by omega)

/-- An image says which entries it holds. -/
theorem Chain.unique (h : Chain m a es) (h' : Chain m a es') (hlen : es.length = es'.length)
    (ha : a + size Entry.len es ≤ W) (ha' : a + size Entry.len es' ≤ W) : es = es' := by
  induction es generalizing a es' with
  | nil => exact (List.length_eq_zero_iff.mp hlen.symm).symm
  | cons e es ih =>
      cases es' with
      | nil => cases hlen
      | cons e' es' =>
          rw [size_cons] at ha ha'
          -- both heads have the size field that stands there
          have hl : e.len = e'.len := by
            rw [← entry_size_of h.1 (by omega), ← entry_size_of h'.1 (by omega)]
          have hb : e.bytes = e'.bytes := by
            rw [← h.1.firstBytes_eq, ← h'.1.firstBytes_eq]
            exact congrArg _ hl
          obtain rfl := Entry.ext_bytes hb
          rw [ih h.2 h'.2 (Nat.succ.inj hlen) (by omega) (by omega)]

theorem Image.unique (h : Image m a es) (h' : Image m a es')
    (ha : a + image_size es ≤ W) (ha' : a + image_size es' ≤ W) : es = es' := by
  unfold image_size at *
  exact h.chain.unique h'.chain (h.num.symm.trans h'.num) (by omega) (by omega)

end Bytes

/-! ## The entries the boot loader makes -/

section Made

variable (type : ℕ) (text : List UInt8)

theorem length_entry_bytes : (entry_bytes type text).length = ENTRY_LEN + text.length := by
  simp only [entry_bytes, VCTL_ENTRY_MAGIC, ascii, le32, List.length_append, List.length_map,
    List.length_cons, List.length_nil, List.length_replicate, ENTRY_LEN]
  omega

/-- An entry with the header that `sys_set_vctl_mac` writes. -/
def Entry.made (h : ENTRY_LEN + text.length < 2 ^ 31) : Entry where
  bytes := entry_bytes type text
  hdr_le := by
    rw [length_entry_bytes]
    exact Nat.le_add_right ..
  int := by rwa [length_entry_bytes]
  size_eq := by
    rw [length_entry_bytes]
    simp only [word, entry_bytes, VCTL_ENTRY_MAGIC, ascii, le32, load32, W]
    simp
    omega

theorem Entry.made_type (h : ENTRY_LEN + text.length < 2 ^ 31) (ht : type < W) :
    (Entry.made type text h).type = type := by
  unfold W at ht
  simp only [Entry.type, Entry.made, word, entry_bytes, VCTL_ENTRY_MAGIC, ascii, le32, load32, W]
  simp
  omega

theorem Entry.made_len (h : ENTRY_LEN + text.length < 2 ^ 31) :
    (Entry.made type text h).len = ENTRY_LEN + text.length :=
  length_entry_bytes type text

end Made

/-! ## `sys_get_vctl_entry` -/

section Get

variable {A : Area} {m : ByteMem} {t : ℕ} {size₀ : ℤ} {es : List Entry}

/-- What is returned, and what is copied, when `o` is the entry found. -/
def answer (size : ℤ) : Option Entry → ℤ × List UInt8
  | none => (-1, [])
  | some e => if e.len ≤ size then (0, e.bytes) else (-1, [])

theorem int32_of_lt {n : ℕ} (h : n < 2 ^ 31) : int32 n = n := if_pos h

/-- The walk over the entries of an image is a lookup. -/
theorem get_loop_spec {a : ℕ} (h : Chain m a es)
    (ha : a + Keyed.size Entry.len es ≤ A.vctl_datap + A.vctl_size) :
    ((get_loop A m t size₀ es.length a).ret, (get_loop A m t size₀ es.length a).result)
      = answer size₀ (lookup Entry.type t es) := by
  have hstop := A.stop_lt
  induction es generalizing a with
  | nil => rfl
  | cons e es ih =>
      rw [size_cons] at ha
      have hlen : e.len < 2 ^ 31 := e.int
      have hsz : entry_size m a = e.len := entry_size_of h.1 (by omega)
      have hty : entry_type m a = e.type := entry_type_of h.1 (by omega)
      rw [List.length_cons, get_loop, hsz, hty]
      by_cases ht : e.type = t
      · have hl : lookup Entry.type t (e :: es) = some e := by simp [lookup, ht]
        rw [if_pos ht, hl, answer, int32_of_lt hlen]
        split_ifs with hle
        · refine Prod.ext rfl ?_
          have hb : BytesAt m a e.bytes := h.1
          change firstBytes _ e.bytes.length = e.bytes
          refine Eq.trans ?_ hb.firstBytes_eq
          apply firstBytes_congr
          intro i hi
          unfold Entry.len at ha
          rw [Nat.mod_eq_of_lt (by omega)]
        · rfl
      · have hl : lookup Entry.type t (e :: es) = lookup Entry.type t es := by simp [lookup, ht]
        have hnext : (a + e.len) % W = a + e.len := Nat.mod_eq_of_lt (by omega)
        rw [if_neg ht, hl, hnext, if_neg (by omega)]
        exact ih h.2 (by omega)

/-- **`sys_get_vctl_entry` on what the store holds.** -/
theorem sys_get_vctl_entry_spec (h : Contents A m A.vctl_datap es) (t : ℕ) (size₀ : ℤ) :
    ((sys_get_vctl_entry A m t size₀).ret, (sys_get_vctl_entry A m t size₀).result)
      = answer size₀ (lookup Entry.type t es) := by
  have hnum := h.num_le
  have hin := h.inside
  unfold image_size at hin
  have hstart : A.vctl_datap + VCTL_HDR_SIZE + Keyed.size Entry.len es
      ≤ A.vctl_datap + A.vctl_size := by omega
  obtain h | ⟨hm, rfl⟩ := h.stored
  · simp only [sys_get_vctl_entry, h.magic, h.num]
    cases es with
    | nil => rfl
    | cons e es =>
        rw [if_neg (by simp), if_neg (by omega)]
        exact get_loop_spec h.chain hstart
  · simp only [sys_get_vctl_entry, hm]
    rfl

end Get

/-! ## The new image -/

section Build

variable {A : Area} {m : ByteMem} {b : Rebuild} {acc es : List Entry} {e : Entry}

/-- The new image as far as it is built: the entries `acc` behind the header,
whose magic stands already. -/
structure Built (A : Area) (b : Rebuild) (acc : List Entry) : Prop where
  magic : has_magic b.buf 0 = true
  total : b.total_size = image_size acc
  num : b.new_total = acc.length
  chain : Chain b.buf VCTL_HDR_SIZE acc
  inside : b.total_size ≤ A.vctl_size

theorem Built.has_room_iff (h : Built A b acc) {n : ℕ} (hn : n < 2 ^ 31) :
    has_room A b n ↔ b.total_size + n < A.vctl_size := by
  have hin := h.inside
  have hint := A.int
  unfold has_room
  rw [Nat.mod_eq_of_lt]
  unfold W
  omega

/-- One more entry is copied into the image. -/
theorem Built.append (h : Built A b acc) (hroom : b.total_size + e.len < A.vctl_size)
    {srce : ℕ → UInt8} (hsrce : ∀ i, i < e.len → srce i = e.bytes.getD i 0) :
    Built A (b.append srce e.len) (acc ++ [e]) := by
  have hint := A.int
  have htot := h.total
  have hW : W = 2 ^ 32 := rfl
  -- the bytes below the old end stay, those behind it are the entry's
  have hold : ∀ x, x < b.total_size → (b.append srce e.len).buf x = b.buf x := by
    intro x hx
    have hsub : ¬ sub32 x b.total_size < e.len := by
      unfold sub32 W
      omega
    exact if_neg hsub
  have hnew : ∀ i, i < e.len → (b.append srce e.len).buf (b.total_size + i) = srce i := by
    intro i hi
    have hsub : sub32 (b.total_size + i) b.total_size = i := by
      rw [sub32_of_le (by omega) (Nat.le_add_right ..)]
      omega
    simp only [Rebuild.append, hsub, if_pos hi]
  have hsum : (b.total_size + e.len) % W = b.total_size + e.len := Nat.mod_eq_of_lt (by omega)
  unfold image_size VCTL_HDR_SIZE at htot
  constructor
  · have hm := h.magic
    unfold has_magic VCTL_MAGIC_SIZE at hm ⊢
    rwa [firstBytes_congr fun i hi => hold _ (by omega)]
  · change (b.total_size + e.len) % W = _
    rw [hsum, h.total]
    simp [image_size, Nat.add_assoc]
  · simp [Rebuild.append, h.num]
  · refine (h.chain.shift fun i hi => hold _ ?_).append ⟨fun i hi => ?_, trivial⟩
    · unfold VCTL_HDR_SIZE
      omega
    · have hstart : VCTL_HDR_SIZE + Keyed.size Entry.len acc = b.total_size := h.total.symm
      rw [hstart, hnew i hi]
      exact hsrce i hi
  · change (b.total_size + e.len) % W ≤ _
    omega

theorem Built.add (h : Built A b acc) (hroom : b.total_size + e.len < A.vctl_size) :
    Built A (b.add e.bytes) (acc ++ [e]) := by
  have h' := h.append hroom fun i _ => rfl
  exact ⟨h'.magic, h'.total, h'.num, h'.chain, h'.inside⟩

theorem Built.with_reads (h : Built A b acc) (r : List (ℕ × ℕ)) :
    Built A { b with reads := r } acc :=
  ⟨h.magic, h.total, h.num, h.chain, h.inside⟩

/-- The entry goes behind the others when it is not in and there is room. -/
def finish (A : Area) (data : List UInt8) (b : Rebuild) : Rebuild :=
  if b.added = false ∧ has_room A b data.length then b.add data else b

/-- A pass of the loop less the record of what it reads. -/
def image_pass (A : Area) (m : ByteMem) (type : ℕ) (data : List UInt8) (b : Rebuild) (a : ℕ) :
    Rebuild :=
  if entry_type m a ≠ type then
    if has_room A b (entry_size m a) then
      b.append (fun i => m ((a + i) % W)) (entry_size m a)
    else b
  else if b.added = false ∧ has_room A b data.length then b.add data else b

/-- What a pass reads: the words of the entry, and the entry if it is copied. -/
def pass_reads (A : Area) (m : ByteMem) (type : ℕ) (b : Rebuild) (a : ℕ) : List (ℕ × ℕ) :=
  entry_reads a ++
    if entry_type m a ≠ type ∧ has_room A b (entry_size m a) then [(a, entry_size m a)] else []

theorem save_pass_eq (type : ℕ) (data : List UInt8) (a : ℕ) :
    save_pass A m type data b a =
      { image_pass A m type data b a with reads := b.reads ++ pass_reads A m type b a } := by
  have hroom : ∀ r n, has_room A { b with reads := r } n ↔ has_room A b n := fun _ _ => Iff.rfl
  unfold save_pass image_pass pass_reads
  by_cases ht : entry_type m a ≠ type
  · simp only [if_pos ht, hroom]
    by_cases hr : has_room A b (entry_size m a)
    · rw [if_pos hr, if_pos hr, if_pos ⟨ht, hr⟩, ← List.append_assoc]
      rfl
    · rw [if_neg hr, if_neg hr, if_neg fun h => hr h.2, List.append_nil]
  · simp only [if_neg ht, hroom, Bool.not_eq_true']
    rw [if_neg fun h : _ ∧ _ => ht h.1, List.append_nil]
    by_cases ha : b.added = false
    · by_cases hr : has_room A b data.length
      · rw [if_pos ha, if_pos hr, if_pos ⟨ha, hr⟩]
        rfl
      · rw [if_pos ha, if_neg hr, if_neg fun h => hr h.2]
    · rw [if_neg ha, if_neg fun h => ha h.1]

/-- One pass at the entry `d` puts into the image what `putWithin` takes at the
head of the list. -/
theorem image_pass_spec {a : ℕ} {d : Entry} (hb : Built A b acc) (hd : BytesAt m a d.bytes)
    (ha : a + d.len < W) (es : List Entry) :
    ∃ taken, Built A (image_pass A m e.type e.bytes b a) (acc ++ taken) ∧
      putWithin Entry.type Entry.len A.vctl_size e b.total_size b.added (d :: es)
        = taken ++ putWithin Entry.type Entry.len A.vctl_size e
            (image_pass A m e.type e.bytes b a).total_size
            (image_pass A m e.type e.bytes b a).added es := by
  have hsz : entry_size m a = d.len := entry_size_of hd (by omega)
  have hty : entry_type m a = d.type := entry_type_of hd (by omega)
  have hdroom : has_room A b d.len ↔ b.total_size + d.len < A.vctl_size := hb.has_room_iff d.int
  have heroom : has_room A b e.bytes.length ↔ b.total_size + e.len < A.vctl_size :=
    hb.has_room_iff e.int
  have hsum : ∀ {n}, b.total_size + n < A.vctl_size →
      (b.total_size + n) % W = b.total_size + n := by
    intro n hn
    have hint := A.int
    exact Nat.mod_eq_of_lt (by unfold W; omega)
  rw [image_pass, hsz, hty, putWithin]
  -- an entry of another type is copied; the first of this type gives way to `e`
  by_cases ht : d.type ≠ e.type
  · rw [if_pos ht, if_pos ht]
    by_cases hroom : has_room A b d.len
    · rw [if_pos hroom, if_pos (hdroom.mp hroom)]
      have hlt := hdroom.mp hroom
      refine ⟨[d], hb.append hlt fun i hi => ?_, ?_⟩
      · rw [Nat.mod_eq_of_lt (by omega)]
        exact hd i hi
      · simp [Rebuild.append, hsum hlt]
    · rw [if_neg hroom, if_neg fun h => hroom (hdroom.mpr h)]
      exact ⟨[], by rwa [List.append_nil], rfl⟩
  · rw [if_neg ht, if_neg ht]
    by_cases hroom : b.added = false ∧ has_room A b e.bytes.length
    · have hlt := heroom.mp hroom.2
      rw [if_pos hroom, if_pos ⟨hroom.1, hlt⟩]
      refine ⟨[e], hb.add hlt, ?_⟩
      have htot : (b.add e.bytes).total_size = b.total_size + e.len := hsum hlt
      rw [htot]
      rfl
    · rw [if_neg hroom, if_neg fun h => hroom ⟨h.1, heroom.mpr h.2⟩]
      exact ⟨[], by rwa [List.append_nil], rfl⟩

/-- The loop over the entries of the old image, and what comes after it, do what
`putWithin` does. -/
theorem save_loop_spec {a : ℕ} (h : Chain m a es)
    (ha : a + Keyed.size Entry.len es ≤ A.vctl_datap + A.vctl_size) (hb : Built A b acc) :
    Built A (finish A e.bytes (save_loop A m e.type e.bytes es.length a b))
      (acc ++ putWithin Entry.type Entry.len A.vctl_size e b.total_size b.added es) := by
  have hstop := A.stop_lt
  induction es generalizing a b acc with
  | nil =>
      have hiff : has_room A b e.bytes.length ↔ b.total_size + e.len < A.vctl_size :=
        hb.has_room_iff e.int
      rw [putWithin, List.length_nil, save_loop, finish]
      by_cases hroom : b.added = false ∧ has_room A b e.bytes.length
      · rw [if_pos hroom, if_pos ⟨hroom.1, hiff.mp hroom.2⟩]
        exact hb.add (hiff.mp hroom.2)
      · rw [if_neg hroom, if_neg fun h' => hroom ⟨h'.1, hiff.mpr h'.2⟩, List.append_nil]
        exact hb
  | cons d es ih =>
      rw [size_cons] at ha
      have hsz : entry_size m a = d.len := entry_size_of h.1 (by omega)
      have hnext : (a + d.len) % W = a + d.len := Nat.mod_eq_of_lt (by omega)
      obtain ⟨taken, hbuilt, hput⟩ := image_pass_spec hb h.1 (by omega) es
      rw [List.length_cons, save_loop, hsz, hnext, if_neg (by omega), save_pass_eq, hput,
        ← List.append_assoc]
      exact ih h.2 (by omega) (hbuilt.with_reads _)

theorem Built.image (h : Built A b acc) (hlen : acc.length < W) :
    Image (store32 b.buf 4 b.new_total) 0 acc := by
  have hint := A.int
  have hin := h.inside
  rw [h.total] at hin
  unfold image_size VCTL_HDR_SIZE at hin
  have hframe : ∀ x, x < 4 ∨ 8 ≤ x → store32 b.buf 4 b.new_total x = b.buf x := fun x hx =>
    store32_frame (by unfold W; omega) (by omega)
  constructor
  · have hm := h.magic
    unfold has_magic VCTL_MAGIC_SIZE at hm ⊢
    rwa [firstBytes_congr fun i hi => hframe _ (by omega)]
  · unfold entry_num
    rw [load32_store32_same (by unfold W; omega), h.num, Nat.mod_eq_of_lt hlen]
  · refine h.chain.shift fun i _ => ?_
    rw [Nat.zero_add]
    exact hframe _ (by unfold VCTL_HDR_SIZE; omega)

/-- **The new image of `sys_save_vctl_entry`** holds the old entries with `e`
put in its place, less those for which there is no room. -/
theorem rebuild_spec (h : Contents A m A.vctl_datap es) (buf : ByteMem) :
    Image (rebuild A m e.type e.bytes buf).buf 0
        (putWithin Entry.type Entry.len A.vctl_size e VCTL_HDR_SIZE false es) ∧
      (rebuild A m e.type e.bytes buf).total_size
        = image_size (putWithin Entry.type Entry.len A.vctl_size e VCTL_HDR_SIZE false es) ∧
      (rebuild A m e.type e.bytes buf).total_size ≤ A.vctl_size := by
  have hin := h.inside
  have hnum := h.num_le
  have horg : (org_total A m).toNat = es.length := by
    unfold org_total
    obtain h | ⟨hm, rfl⟩ := h.stored
    · rw [h.magic, if_pos rfl, h.num, int32_of_lt (by omega), Int.toNat_natCast]
    · rw [hm]
      rfl
  have hchain : Chain m (A.vctl_datap + VCTL_HDR_SIZE) es := by
    obtain h | ⟨-, rfl⟩ := h.stored
    · exact h.chain
    · trivial
  unfold image_size at hin
  -- the loop begins with the magic number alone
  have hstart : Built A
      { buf := fun x => if x < VCTL_MAGIC_SIZE then VCTL_HDR_MAGIC.getD x 0 else buf x
        total_size := VCTL_HDR_SIZE
        new_total := 0
        added := false
        reads := [(A.vctl_datap, 8)]
        writes := [(0, VCTL_MAGIC_SIZE)] } [] := by
    refine ⟨?_, rfl, rfl, trivial, A.hdr_le⟩
    simp [has_magic, firstBytes, VCTL_MAGIC_SIZE, List.range_succ, VCTL_HDR_MAGIC, ascii]
  have hloop := save_loop_spec (e := e) hchain (by omega) hstart
  rw [List.nil_append] at hloop
  have hlen : (putWithin Entry.type Entry.len A.vctl_size e VCTL_HDR_SIZE false es).length < W :=
    lt_of_le_of_lt putWithin_length_le (by unfold W; omega)
  unfold rebuild
  rw [horg]
  exact ⟨hloop.image hlen, hloop.total, hloop.inside⟩

end Build

end CsBoot.Vctl
