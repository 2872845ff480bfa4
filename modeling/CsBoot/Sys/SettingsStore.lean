/-
The settings survive: what `sys_save_mac`, `sys_save_ip_cfg` and `sys_save_boot_file` have
saved is what `sys_init_cfg` finds, after any run of such calls and after a reboot.

A store `Remembers` a configuration: its entries say it, or there is no entry and the
configuration has what the board is compiled with. Every save on the NOR build keeps this for
the configuration that has the saved part replaced (`remembers_step`), so that it holds after
every run (`saved_settings_found`).
-/
import CsBoot.Lib.Run
import CsBoot.Sys.SettingsText
import CsBoot.Sys.VctlRun

set_option autoImplicit false

namespace CsBoot.Vctl

open CString (ch)
open ByteMem SkipBlocks Nor Ui Keyed Printf CFormat

variable {σ : Type} {F : Sector σ} {A : Area} {s : Store σ} {es : List Entry} {e : Entry}

/-! ## Text entries in the store -/

section Text

variable {items : List Item}

/-- The entry that is printed anew, whatever entry there was. -/
theorem text_entry_spec (type size : ℕ) (h : Contents A s.ram A.vctl_datap es) (hp : Printed items)
    (htype : type < W) (hsize : 4 ∣ size) (hint : size < 2 ^ 31)
    (hfits : ENTRY_LEN + (text items).length < size) (buf : ℕ → UInt8) :
    ∃ e : Entry, e.bytes = text_entry A s.ram type size (format items) (args items) buf ∧
      e.type = type ∧ e.len ≤ size ∧ HasText e.bytes (text items) := by
  have hget := sys_get_vctl_entry_spec h type size
  -- the entry whose header is taken over
  obtain ⟨entry, hsel, hlo, hhi, hword⟩ : ∃ entry : List UInt8,
      (if (sys_get_vctl_entry A s.ram type size).ret = 0
        then (sys_get_vctl_entry A s.ram type size).result else entry_bytes type []) = entry ∧
      ENTRY_LEN ≤ entry.length ∧ entry.length ≤ size ∧ word entry 8 = type := by
    have hnew : ENTRY_LEN ≤ (entry_bytes type []).length ∧ (entry_bytes type []).length ≤ size ∧
        word (entry_bytes type []) 8 = type := by
      have hlen := length_entry_bytes type []
      have hmade := Entry.made_type type [] (by decide) htype
      refine ⟨hlen.ge, ?_, hmade⟩
      rw [hlen]
      exact (Nat.le_add_right _ _).trans hfits.le
    have hnone : (sys_get_vctl_entry A s.ram type size).ret = -1 → ∃ entry : List UInt8,
        (if (sys_get_vctl_entry A s.ram type size).ret = 0
          then (sys_get_vctl_entry A s.ram type size).result else entry_bytes type []) = entry ∧
        ENTRY_LEN ≤ entry.length ∧ entry.length ≤ size ∧ word entry 8 = type := fun hret =>
      ⟨_, if_neg (by rw [hret]; decide), hnew⟩
    cases hlook : lookup Entry.type type es with
    | none =>
      rw [hlook] at hget
      exact hnone (Prod.ext_iff.mp hget).1
    | some e =>
      rw [hlook, answer] at hget
      split_ifs at hget with hle
      · obtain ⟨hret, hres⟩ := Prod.ext_iff.mp hget
        have hkey := key_of_lookup hlook
        refine ⟨e.bytes, ?_, e.hdr_le, by exact_mod_cast hle, hkey⟩
        rw [if_pos hret]
        exact hres
      · exact hnone (Prod.ext_iff.mp hget).1
  obtain ⟨hlen, hsz, htyp, hle, htext⟩ := text_bytes_spec hp hlo hhi hsize hint hfits buf
  have heq : text_entry A s.ram type size (format items) (args items) buf = _ :=
    congrArg (fun entry : List UInt8 =>
      let entry_buf := entry ++ List.replicate (size - entry.length) 0
      let p := sprintf_at entry_buf ENTRY_LEN (format items) (args items) buf
      let entry_size := (p.2 + ENTRY_LEN + 1 + 3) / 4 * 4
      (patch p.1 4 (le32 entry_size)).take entry_size) hsel
  refine ⟨⟨_, ?_, ?_, hsz⟩, heq.symm, htyp.trans hword, hle, htext⟩
  · exact (Nat.le_add_right _ _).trans htext.lt.le
  · exact lt_of_le_of_lt hle hint

end Text

/-! ## The VLAN entry -/

section Vlan

variable {bytes pre mid rest x y : List UInt8} {mac1 mac2 : ℕ → UInt8}

/-- An entry in the layout of the source: two addresses of twelve digits at the places where
they are read, each with a character behind it that is no zero. -/
structure Layout (bytes pre a₁ mid a₂ rest : List UInt8) : Prop where
  eq : bytes = pre ++ (a₁ ++ (ch ':' :: (mid ++ (a₂ ++ ch ':' :: rest))))
  len_pre : pre.length = ENTRY_LEN + 7
  len₁ : a₁.length = 12
  len_mid : mid.length = 23
  len₂ : a₂.length = 12

theorem patch_append {i : ℕ} {srce : List UInt8} (hi : pre.length = i)
    (hx : x.length = srce.length) : patch (pre ++ (x ++ y)) i srce = pre ++ (srce ++ y) := by
  rw [patch, ← hi, List.take_left' rfl, ← hx, ← List.drop_drop, List.drop_left' rfl,
    List.drop_left' rfl, List.append_assoc]

theorem length_mac_hex (mac : ℕ → UInt8) : (mac_hex mac).length = 12 := by
  simp [mac_hex, hex2, firstBytes, List.range_succ]

/-- Both addresses are replaced in place. -/
theorem patch_layout {a₁ a₂ h₁ h₂ : List UInt8} (h : Layout bytes pre a₁ mid a₂ rest)
    (hh₁ : h₁.length = 12) (hh₂ : h₂.length = 12) (z : List UInt8) :
    patch (patch (bytes ++ z) (ENTRY_LEN + 7) (h₁ ++ [ch ':'])) (ENTRY_LEN + 43) (h₂ ++ [ch ':']) =
      pre ++ (h₁ ++ (ch ':' :: (mid ++ (h₂ ++ ch ':' :: rest)))) ++ z := by
  have hpre := h.len_pre
  have h₁' := h.len₁
  have hmid := h.len_mid
  have h₂' := h.len₂
  have hfirst : bytes ++ z =
      pre ++ ((a₁ ++ [ch ':']) ++ (mid ++ (a₂ ++ ch ':' :: (rest ++ z)))) := by
    rw [h.eq]
    simp
  rw [hfirst, patch_append hpre (by simp [h₁', hh₁])]
  have hsecond : pre ++ ((h₁ ++ [ch ':']) ++ (mid ++ (a₂ ++ ch ':' :: (rest ++ z)))) =
      (pre ++ ((h₁ ++ [ch ':']) ++ mid)) ++ ((a₂ ++ [ch ':']) ++ (rest ++ z)) := by
    simp
  rw [hsecond, patch_append (by simp [hpre, hh₁, hmid, ENTRY_LEN]) (by simp [h₂', hh₂])]
  simp

/-- A byte is read as it was printed. -/
theorem read_hex2 (b : UInt8) :
    (char2hex ((hex2 b).getD 0 0) * 16 + char2hex ((hex2 b).getD 1 0)).toUInt8 = b := by
  have hdig : ∀ d < 16, char2hex (UInt8.ofNat (if d < 10 then '0'.toNat + d
      else 'A'.toNat + (d - 10))) = UInt32.ofNat d := by decide
  have hlt := b.toNat_lt
  have h₁ := hdig (b.toNat / 16) (by omega)
  have h₂ := hdig (b.toNat % 16) (by omega)
  simp only [hex2, List.map_cons, List.getD_cons_zero, List.getD_cons_succ, h₁, h₂]
  apply UInt8.toNat_inj.mp
  rw [UInt32.toNat_toUInt8, UInt32.toNat_add, UInt32.toNat_mul, UInt32.toNat_ofNat',
    UInt32.toNat_ofNat']
  have h16 : UInt32.toNat 16 = 16 := rfl
  rw [h16]
  omega

theorem getD_flatMap_hex2 {l : List UInt8} {i : ℕ} (hi : i < l.length) (k : ℕ) (hk : k < 2)
    (z : List UInt8) :
    (l.flatMap hex2 ++ z).getD (2 * i + k) 0 = (hex2 (l.getD i 0)).getD k 0 := by
  induction l generalizing i with
  | nil => cases hi
  | cons b l ih =>
    rw [List.flatMap_cons, List.append_assoc]
    cases i with
    | zero =>
      rw [List.getD_append _ _ _ _ (by simpa [hex2] using hk), Nat.mul_zero, Nat.zero_add,
        List.getD_cons_zero]
    | succ i =>
      have hlen : (hex2 b).length = 2 := rfl
      rw [List.getD_append_right _ _ _ _ (by rw [hlen]; omega), hlen,
        show 2 * (i + 1) + k - 2 = 2 * i + k by omega, List.getD_cons_succ]
      exact ih (by simpa using hi)

/-- **An address is read** as it was printed. -/
theorem read_mac_hex (mac : ℕ → UInt8) (z : List UInt8) :
    firstBytes (read_mac (mac_hex mac ++ z)) 6 = firstBytes mac 6 := by
  apply firstBytes_congr
  intro i hi
  have hlen : i < (firstBytes mac 6).length := by rwa [length_firstBytes]
  have hget : (firstBytes mac 6).getD i 0 = mac i := by
    simp [firstBytes, hi]
  have h₀ := getD_flatMap_hex2 hlen 0 (by norm_num) z
  have h₁ := getD_flatMap_hex2 hlen 1 (by norm_num) z
  rw [hget] at h₀ h₁
  rw [read_mac, mac_hex, ← Nat.add_zero (2 * i), h₀, Nat.add_zero, h₁]
  exact read_hex2 (mac i)

/-- The fresh entry has the layout. -/
theorem vlan_layout (mac1 mac2 : ℕ → UInt8) :
    ∃ pre mid rest, Layout (entry_bytes VCT_VLAN (vlan_text mac1 mac2)) pre (mac_hex mac1) mid
      (mac_hex mac2) rest := by
  refine ⟨VCTL_ENTRY_MAGIC ++ (le32 (ENTRY_LEN + (vlan_text mac1 mac2).length) ++
      (le32 VCT_VLAN ++ (List.replicate 8 (UInt8.ofNat '0'.toNat) ++
        ascii ['M', 'A', 'C', '1', ':', '0', 'x']))),
    ascii ['I', 'D', '1', ':', '1', ':', 'M', 'A', 'P', '1', ':', '0', 'x', '1', '0', ':', 'M',
      'A', 'C', '2', ':', '0', 'x'],
    ascii ['I', 'D', '2', ':', '2', ':', 'M', 'A', 'P', '2', ':', '0', 'x', '0', 'f'] ++ [0], ?_,
    ?_, length_mac_hex _, by decide, length_mac_hex _⟩
  · simp [entry_bytes, vlan_text, ascii]
  · simp [VCTL_ENTRY_MAGIC, ascii, le32, ENTRY_LEN]

/-- The VLAN entry holds two addresses, and goes into a buffer of 128 bytes. -/
def HasMac (es : List Entry) (mac0 mac1 : List UInt8) : Prop :=
  ∃ e pre a₁ mid a₂ rest, lookup Entry.type VCT_VLAN es = some e ∧ e.len ≤ 128 ∧
    Layout e.bytes pre a₁ mid a₂ rest ∧
      (∀ z, firstBytes (read_mac (a₁ ++ z)) 6 = mac0 ∧ firstBytes (read_mac (a₂ ++ z)) 6 = mac1)

/-- What `sys_get_vctl_mac` finds, and that it saves nothing. -/
theorem sys_get_vctl_mac_spec {mac0 mac1 : List UInt8} (h : Contents A s.ram A.vctl_datap es)
    (hmac : HasMac es mac0 mac1) (target : Target) (stack : List UInt8)
    (old : (ℕ → UInt8) × (ℕ → UInt8)) (malloc : Option ByteMem) :
    (sys_get_vctl_mac F A target s stack old malloc).1 = s ∧
      firstBytes (sys_get_vctl_mac F A target s stack old malloc).2.1 6 = mac0 ∧
      firstBytes (sys_get_vctl_mac F A target s stack old malloc).2.2 6 = mac1 := by
  obtain ⟨e, pre, a₁, mid, a₂, rest, hlook, hle, hlay, hread⟩ := hmac
  have hget := sys_get_vctl_entry_spec h VCT_VLAN 128
  rw [hlook, answer, if_pos (by exact_mod_cast hle)] at hget
  obtain ⟨hret, hres⟩ := Prod.ext_iff.mp hget
  simp only at hret hres
  have hle' : e.bytes.length ≤ 128 := hle
  -- the two places in the buffer
  have hbuf : ∃ z, (e.bytes ++ stack.drop e.bytes.length).take 128 = e.bytes ++ z := by
    refine ⟨(stack.drop e.bytes.length).take (128 - e.bytes.length), ?_⟩
    rw [List.take_append, List.take_of_length_le hle']
  obtain ⟨z, hz⟩ := hbuf
  have hfirst : (e.bytes ++ z).drop (ENTRY_LEN + 7) =
      a₁ ++ (ch ':' :: (mid ++ (a₂ ++ ch ':' :: (rest ++ z)))) := by
    rw [hlay.eq, ← hlay.len_pre, List.append_assoc, List.drop_left' rfl]
    simp
  have hsecond : (e.bytes ++ z).drop (ENTRY_LEN + 43) = a₂ ++ ch ':' :: (rest ++ z) := by
    have hlen : (pre ++ (a₁ ++ (ch ':' :: mid))).length = ENTRY_LEN + 43 := by
      simp only [List.length_append, List.length_cons, hlay.len_pre, hlay.len₁, hlay.len_mid]
    have hsplit : e.bytes ++ z =
        (pre ++ (a₁ ++ (ch ':' :: mid))) ++ (a₂ ++ ch ':' :: (rest ++ z)) := by
      rw [hlay.eq]
      simp
    rw [hsplit, ← hlen, List.drop_left' rfl]
  have hcolon : ∀ (a w : List UInt8), a.length = 12 → (a ++ ch ':' :: w).getD 12 0 = ch ':' := by
    intro a w ha
    rw [List.getD_append_right _ _ _ _ ha.le, ha]
    rfl
  have hne : decide (ch ':' = 0) = false := by decide
  simp only [sys_get_vctl_mac, hret, ne_eq, not_true_eq_false, if_false, hres, hz, hfirst, hsecond,
    hcolon _ _ hlay.len₁, hcolon _ _ hlay.len₂, hne, Bool.or_false, Bool.false_eq_true]
  exact ⟨trivial, (hread _).1, (hread _).2⟩

/-- The VLAN entry that `sys_set_vctl_mac` saves. -/
def vlan_entry_bytes (A : Area) (m : ByteMem) (mac1 mac2 : ℕ → UInt8) : List UInt8 :=
  let r := sys_get_vctl_entry A m VCT_VLAN 128
  if r.ret = 0 then
    let entry_buf := r.result ++ List.replicate (128 - r.result.length) 0
    let entry_buf := patch entry_buf (ENTRY_LEN + 7) (mac_hex mac1 ++ ascii [':'])
    let entry_buf := patch entry_buf (ENTRY_LEN + 43) (mac_hex mac2 ++ ascii [':'])
    entry_buf.take (load32 (fun i => entry_buf.getD i 0) 4)
  else entry_bytes VCT_VLAN (vlan_text mac1 mac2)

theorem sys_set_vctl_mac_eq (target : Target) (s : Store σ) (mac1 mac2 : ℕ → UInt8)
    (malloc : Option ByteMem) :
    sys_set_vctl_mac F A target s mac1 mac2 malloc =
      (sys_save_vctl_entry F A target s VCT_VLAN (vlan_entry_bytes A s.ram mac1 mac2)
        malloc).1 := by
  by_cases hret : (sys_get_vctl_entry A s.ram VCT_VLAN 128).ret = 0
  · simp only [sys_set_vctl_mac, vlan_entry_bytes, if_pos hret]
  · simp only [sys_set_vctl_mac, vlan_entry_bytes, if_neg hret]

/-- The VLAN entry, if there is one that fits its buffer, has the layout. -/
def VlanOk (es : List Entry) : Prop :=
  ∀ e, lookup Entry.type VCT_VLAN es = some e → e.len ≤ 128 →
    ∃ pre a₁ mid a₂ rest, Layout e.bytes pre a₁ mid a₂ rest

/-- A word in the common beginning. -/
theorem word_append {i : ℕ} (hi : i + 4 ≤ pre.length) (hlen : pre.length ≤ W) (x y : List UInt8) :
    word (pre ++ x) i = word (pre ++ y) i :=
  word_congr (by omega) (by omega) fun k hk => by
    rw [List.getD_append _ _ _ _ (by omega), List.getD_append _ _ _ _ (by omega)]

/-- The entry with other addresses. -/
theorem Layout.replace {a₁ a₂ h₁ h₂ : List UInt8} (h : Layout e.bytes pre a₁ mid a₂ rest)
    (hh₁ : h₁.length = 12) (hh₂ : h₂.length = 12) :
    ∃ e' : Entry, e'.bytes = pre ++ (h₁ ++ (ch ':' :: (mid ++ (h₂ ++ ch ':' :: rest)))) ∧
      e'.type = e.type ∧ e'.len = e.len := by
  have hpre : pre.length = 27 := h.len_pre
  have hlen : (pre ++ (h₁ ++ (ch ':' :: (mid ++ (h₂ ++ ch ':' :: rest))))).length =
      e.bytes.length := by
    rw [h.eq]
    simp only [List.length_append, List.length_cons, hh₁, hh₂, h.len₁, h.len₂]
  have hword : ∀ i, i + 4 ≤ 27 →
      word (pre ++ (h₁ ++ (ch ':' :: (mid ++ (h₂ ++ ch ':' :: rest))))) i = word e.bytes i := by
    intro i hi
    rw [h.eq]
    exact word_append (by omega) (by unfold W; omega) _ _
  refine ⟨⟨_, ?_, ?_, ?_⟩, rfl, hword 8 (by norm_num), hlen⟩
  · exact e.hdr_le.trans_eq hlen.symm
  · exact hlen.trans_lt e.int
  · rw [hword 4 (by norm_num), hlen]
    exact e.size_eq

/-- **The VLAN entry that is saved**: a fresh one, or the one that is there with both
addresses replaced and every other byte as it was. -/
theorem vlan_entry_spec (h : Contents A s.ram A.vctl_datap es) (hok : VlanOk es)
    (mac1 mac2 : ℕ → UInt8) :
    ∃ e pre mid rest, e.bytes = vlan_entry_bytes A s.ram mac1 mac2 ∧ Entry.type e = VCT_VLAN ∧
      e.len ≤ 128 ∧ Layout e.bytes pre (mac_hex mac1) mid (mac_hex mac2) rest ∧
      ∀ e', lookup Entry.type VCT_VLAN es = some e' → e'.len ≤ 128 →
        ∃ a₁ a₂, Layout e'.bytes pre a₁ mid a₂ rest := by
  have hget := sys_get_vctl_entry_spec h VCT_VLAN 128
  have hnew : (sys_get_vctl_entry A s.ram VCT_VLAN 128).ret = -1 →
      (∀ e', lookup Entry.type VCT_VLAN es = some e' → ¬ e'.len ≤ 128) →
      ∃ e pre mid rest, e.bytes = vlan_entry_bytes A s.ram mac1 mac2 ∧ Entry.type e = VCT_VLAN ∧
        e.len ≤ 128 ∧ Layout e.bytes pre (mac_hex mac1) mid (mac_hex mac2) rest ∧
        ∀ e', lookup Entry.type VCT_VLAN es = some e' → e'.len ≤ 128 →
          ∃ a₁ a₂, Layout e'.bytes pre a₁ mid a₂ rest := by
    intro hret hnone
    obtain ⟨pre, mid, rest, hlay⟩ := vlan_layout mac1 mac2
    have hlen := length_vlan_text mac1 mac2
    refine ⟨Entry.made VCT_VLAN (vlan_text mac1 mac2) (by rw [hlen]; decide), pre, mid, rest, ?_,
      Entry.made_type _ _ _ (by decide), ?_, hlay, fun e' he hle => absurd hle (hnone e' he)⟩
    · rw [vlan_entry_bytes, if_neg (by rw [hret]; decide)]
      rfl
    · rw [Entry.made_len, hlen]
      decide
  cases hlook : lookup Entry.type VCT_VLAN es with
  | none =>
    rw [hlook] at hget
    have hnone : ∀ e', lookup Entry.type VCT_VLAN es = some e' → False := by
      intro e' he
      rw [hlook] at he
      cases he
    simpa only [hlook] using hnew (Prod.ext_iff.mp hget).1 fun e' he => (hnone e' he).elim
  | some e' =>
    rw [hlook, answer] at hget
    split_ifs at hget with hle
    · obtain ⟨hret, hres⟩ := Prod.ext_iff.mp hget
      simp only at hret hres
      have hle' : e'.bytes.length ≤ 128 := by exact_mod_cast hle
      obtain ⟨pre, a₁, mid, a₂, rest, hlay⟩ := hok e' hlook hle'
      have hpatch := patch_layout hlay (length_mac_hex mac1) (length_mac_hex mac2)
        (List.replicate (128 - e'.bytes.length) 0)
      obtain ⟨e, hbytes, htype, hlen⟩ :=
        hlay.replace (length_mac_hex mac1) (length_mac_hex mac2)
      rw [← hbytes] at hpatch
      -- the size in the header is that of the entry that was there
      have hsize : word (e.bytes ++ List.replicate (128 - e'.bytes.length) 0) 4 = e.bytes.length :=
        (word_append (by have := e.hdr_le; unfold ENTRY_LEN at this; omega)
          (e.int.le.trans (by unfold W; norm_num)) _ []).trans
          ((congrArg (word · 4) (List.append_nil _)).trans e.size_eq)
      refine ⟨e, pre, mid, rest, ?_, htype.trans (key_of_lookup hlook), hlen.trans_le hle', ?_, ?_⟩
      · unfold word at hsize
        simp only [vlan_entry_bytes, if_pos hret, hres]
        rw [show ascii [':'] = [ch ':'] from rfl, hpatch, hsize, List.take_left' rfl]
      · exact ⟨hbytes, hlay.len_pre, length_mac_hex _, hlay.len_mid, length_mac_hex _⟩
      · intro e'' he _
        cases he
        exact ⟨a₁, a₂, hlay⟩
    · have hnot : ∀ e'', lookup Entry.type VCT_VLAN es = some e'' → ¬ e''.len ≤ 128 := by
        intro e'' he
        rw [hlook] at he
        cases he
        exact_mod_cast hle
      simpa only [hlook] using hnew (Prod.ext_iff.mp hget).1 hnot

end Vlan

/-! ## The getters -/

section Getters

variable {default c : IpCfg} {f default' : BootFiles}

/-- The IP settings of the entries: those of the entry, or the ones that hold without an entry
that fits its buffer. -/
def HasIp (default : IpCfg) (es : List Entry) (c : IpCfg) : Prop :=
  (∃ e, lookup Entry.type VCT_IP es = some e ∧ e.len ≤ 128 ∧ HasText e.bytes (ip_text c)) ∨
    (∀ e, lookup Entry.type VCT_IP es = some e → ¬ e.len ≤ 128) ∧ c = default

/-- The boot files of the entries, likewise. -/
def HasBoot (default : BootFiles) (es : List Entry) (f : BootFiles) : Prop :=
  (∃ e, lookup Entry.type VCT_BOOT_FILE es = some e ∧ e.len ≤ 512 ∧ f.Ok ∧
    HasText e.bytes (boot_text f)) ∨
    (∀ e, lookup Entry.type VCT_BOOT_FILE es = some e → ¬ e.len ≤ 512) ∧ f = default

/-- An entry that does not fit the buffer is as none. -/
theorem get_none {type : ℕ} (size : ℤ) (h : Contents A s.ram A.vctl_datap es)
    (hnone : ∀ e, lookup Entry.type type es = some e → ¬ (e.len : ℤ) ≤ size) :
    (sys_get_vctl_entry A s.ram type size).ret = -1 := by
  have hget := sys_get_vctl_entry_spec h type size
  cases hlook : lookup Entry.type type es with
  | none =>
    rw [hlook] at hget
    exact (Prod.ext_iff.mp hget).1
  | some e =>
    rw [hlook, answer, if_neg (hnone e hlook)] at hget
    exact (Prod.ext_iff.mp hget).1

theorem get_some {type : ℕ} (size : ℤ) (h : Contents A s.ram A.vctl_datap es)
    (hlook : lookup Entry.type type es = some e) (hle : (e.len : ℤ) ≤ size) :
    (sys_get_vctl_entry A s.ram type size).ret = 0 ∧
      (sys_get_vctl_entry A s.ram type size).result = e.bytes := by
  have hget := sys_get_vctl_entry_spec h type size
  rw [hlook, answer, if_pos hle] at hget
  exact Prod.ext_iff.mp hget

theorem sys_get_vctl_ip_spec (h : Contents A s.ram A.vctl_datap es) (hip : HasIp default es c)
    (stack : List UInt8) : sys_get_vctl_ip A s.ram stack default = c := by
  unfold sys_get_vctl_ip
  obtain ⟨e, hlook, hle, htext⟩ | ⟨hnone, rfl⟩ := hip
  · obtain ⟨hret, hres⟩ := get_some 128 h hlook (by exact_mod_cast hle)
    have hzero : 0 ∉ ip_text c := text_ip_items c ▸ (printed_ip_items c).zero_not_mem
    simp only [hret, hres, if_true]
    rw [htext.entry_text_eq hzero hle, parse_ip_text]
  · have hret := get_none 128 h fun e he => by exact_mod_cast hnone e he
    simp only [hret]
    rfl

theorem sys_get_vctl_boot_file_spec (h : Contents A s.ram A.vctl_datap es)
    (hboot : HasBoot default' es f) (stack : List UInt8) :
    sys_get_vctl_boot_file A s.ram stack default' = f := by
  unfold sys_get_vctl_boot_file
  obtain ⟨e, hlook, hle, hok, htext⟩ | ⟨hnone, rfl⟩ := hboot
  · obtain ⟨hret, hres⟩ := get_some 512 h hlook (by exact_mod_cast hle)
    have hzero : 0 ∉ boot_text f := text_boot_items f ▸ (printed_boot_items hok).zero_not_mem
    simp only [hret, hres, if_true]
    rw [htext.entry_text_eq hzero hle, parse_boot_text hok]
  · have hret := get_none 512 h fun e he => by exact_mod_cast hnone e he
    simp only [hret]
    rfl

end Getters

/-! ## Saving -/

section Saving

variable {default cfg : Cfg}

/-- The three things that are saved. -/
inductive Part
  | mac
  | ip
  | boot

/-- A call of `sys_save_mac`, `sys_save_ip_cfg` or `sys_save_boot_file`: the configuration at
its time, what is on the stack, and what `malloc` gives. -/
structure Save where
  part : Part
  cfg : Cfg
  buf : ℕ → UInt8
  malloc : ByteMem

def save (F : Sector σ) (A : Area) (s : Store σ) (op : Save) : Store σ :=
  match op.part with
  | .mac => sys_save_mac F A .nor s op.cfg (some op.malloc)
  | .ip => sys_save_ip_cfg F A .nor s op.cfg op.buf (some op.malloc)
  | .boot => sys_save_boot_file F A .nor s op.cfg op.buf (some op.malloc)

/-- The configuration with the saved part replaced. -/
def Cfg.keep (cfg : Cfg) (op : Save) : Cfg :=
  match op.part with
  | .mac => { cfg with mac0 := op.cfg.mac0, mac1 := op.cfg.mac1 }
  | .ip => { cfg with ip := op.cfg.ip }
  | .boot => { cfg with boot := op.cfg.boot }

/-- The entry that is saved. -/
def saved_bytes (A : Area) (s : Store σ) (op : Save) : List UInt8 :=
  match op.part with
  | .mac => vlan_entry_bytes A s.ram (mac_bytes op.cfg.mac0) (mac_bytes op.cfg.mac1)
  | .ip => ip_entry_bytes A s.ram op.cfg.ip op.buf
  | .boot => boot_entry_bytes A s.ram op.cfg.boot op.buf

def Part.type : Part → ℕ
  | .mac => VCT_VLAN
  | .ip => VCT_IP
  | .boot => VCT_BOOT_FILE

/-- Addresses of six bytes, and names of files. -/
structure Cfg.Ok (cfg : Cfg) : Prop where
  mac0 : cfg.mac0.length = 6
  mac1 : cfg.mac1.length = 6
  boot : cfg.boot.Ok

/-- There is room for the entry that is saved. -/
def Roomy (A : Area) (s : Store σ) (op : Save) : Prop :=
  ∀ es e, Contents A s.ram A.vctl_datap es → e.bytes = saved_bytes A s op → Room A e es

/-- The entries say the configuration. -/
structure Says (default : Cfg) (es : List Entry) (cfg : Cfg) : Prop where
  mac : HasMac es cfg.mac0 cfg.mac1
  ip : HasIp default.ip es cfg.ip
  boot : HasBoot default.boot es cfg.boot

/-- Flash and copy hold entries that say the configuration. -/
def Remembers (F : Sector σ) (A : Area) (default : Cfg) (s : Store σ) (cfg : Cfg) : Prop :=
  ∃ es, Contents A s.ram A.vctl_datap es ∧ Contents A (F.read s.flash) 0 es ∧
    Says default es cfg

theorem save_eq (s : Store σ) (op : Save) :
    save F A s op = (sys_save_vctl_entry F A .nor s op.part.type (saved_bytes A s op)
      (some op.malloc)).1 := by
  obtain ⟨part, cfg, buf, malloc⟩ := op
  cases part with
  | mac => exact sys_set_vctl_mac_eq ..
  | ip => rfl
  | boot => rfl

theorem HasMac.vlanOk {mac0 mac1 : List UInt8} (h : HasMac es mac0 mac1) : VlanOk es := by
  obtain ⟨e, pre, a₁, mid, a₂, rest, hlook, -, hlay, -⟩ := h
  intro e' he' _
  cases hlook.symm.trans he'
  exact ⟨pre, a₁, mid, a₂, rest, hlay⟩

/-- Six bytes are an address. -/
theorem firstBytes_mac {mac : List UInt8} (h : mac.length = 6) :
    firstBytes (mac_bytes mac) 6 = mac := by
  apply List.ext_getElem
  · rw [length_firstBytes, h]
  · intro i h₁ h₂
    simp [firstBytes, mac_bytes, h₂]

/-- An entry of another type changes nothing of the others. -/
theorem hasMac_put {mac0 mac1 : List UInt8} (h : HasMac es mac0 mac1) (he : e.type ≠ VCT_VLAN) :
    HasMac (put Entry.type e es) mac0 mac1 := by
  obtain ⟨e', pre, a₁, mid, a₂, rest, hlook, hrest⟩ := h
  exact ⟨e', pre, a₁, mid, a₂, rest, (lookup_put_other he.symm).trans hlook, hrest⟩

theorem hasIp_put {default c : IpCfg} (h : HasIp default es c) (he : e.type ≠ VCT_IP) :
    HasIp default (put Entry.type e es) c := by
  unfold HasIp
  rwa [lookup_put_other he.symm]

theorem hasBoot_put {default f : BootFiles} (h : HasBoot default es f)
    (he : e.type ≠ VCT_BOOT_FILE) : HasBoot default (put Entry.type e es) f := by
  unfold HasBoot
  rwa [lookup_put_other he.symm]

/-- **The entry that is saved** says its part. -/
theorem saved_entry_spec (h : Contents A s.ram A.vctl_datap es) (hmac : VlanOk es)
    {op : Save} (hok : op.cfg.Ok) :
    ∃ e : Entry, e.bytes = saved_bytes A s op ∧ e.type = op.part.type ∧ e.len ≤ 512 ∧
      ∀ default cfg, Says default es cfg → Says default (put Entry.type e es) (cfg.keep op) := by
  obtain ⟨part, new, buf, malloc⟩ := op
  cases part with
  | mac =>
    obtain ⟨e, pre, mid, rest, hbytes, htype, hle, hlay, -⟩ :=
      vlan_entry_spec h hmac (mac_bytes new.mac0) (mac_bytes new.mac1)
    -- the other parts are said by entries of other types, which are as they were
    have hlook : lookup Entry.type VCT_VLAN (put Entry.type e es) = some e :=
      htype ▸ lookup_put_self
    refine ⟨e, hbytes, htype, hle.trans (by norm_num), fun default cfg htold => ⟨?_, ?_, ?_⟩⟩
    · refine ⟨e, pre, _, mid, _, rest, hlook, hle, hlay, fun z => ?_⟩
      rw [read_mac_hex, read_mac_hex, firstBytes_mac hok.mac0, firstBytes_mac hok.mac1]
      exact ⟨rfl, rfl⟩
    · exact hasIp_put htold.ip (by rw [htype]; decide)
    · exact hasBoot_put htold.boot (by rw [htype]; decide)
  | ip =>
    have hlen := length_ip_text new.ip
    obtain ⟨e, hbytes, htype, hle, htext⟩ := text_entry_spec VCT_IP 128 h
      (printed_ip_items new.ip) (by decide) (by decide) (by norm_num)
      (by rw [text_ip_items]; unfold ENTRY_LEN; omega) buf
    rw [format_ip_items, args_ip_items] at hbytes
    rw [text_ip_items] at htext
    have hlook : lookup Entry.type VCT_IP (put Entry.type e es) = some e :=
      htype ▸ lookup_put_self
    refine ⟨e, hbytes, htype, hle.trans (by norm_num), fun default cfg htold => ⟨?_, ?_, ?_⟩⟩
    · exact hasMac_put htold.mac (by rw [htype]; decide)
    · exact .inl ⟨e, hlook, hle, htext⟩
    · exact hasBoot_put htold.boot (by rw [htype]; decide)
  | boot =>
    have hlen := length_boot_text hok.boot
    obtain ⟨e, hbytes, htype, hle, htext⟩ := text_entry_spec VCT_BOOT_FILE 512 h
      (printed_boot_items hok.boot) (by decide) (by decide) (by norm_num)
      (by rw [text_boot_items]; unfold ENTRY_LEN; omega) buf
    rw [format_boot_items, args_boot_items] at hbytes
    rw [text_boot_items] at htext
    have hlook : lookup Entry.type VCT_BOOT_FILE (put Entry.type e es) = some e :=
      htype ▸ lookup_put_self
    refine ⟨e, hbytes, htype, hle, fun default cfg htold => ⟨?_, ?_, ?_⟩⟩
    · exact hasMac_put htold.mac (by rw [htype]; decide)
    · exact hasIp_put htold.ip (by rw [htype]; decide)
    · exact .inl ⟨e, hlook, hle, hok.boot, htext⟩

/-- Room for `n` more entries of 512 bytes. -/
structure Spare (A : Area) (es : List Entry) (n : ℕ) : Prop where
  size : image_size es + 512 * n < A.vctl_size
  num : es.length + n ≤ 128

theorem image_size_put_le (he : e.len ≤ 512) :
    image_size (put Entry.type e es) ≤ image_size es + 512 := by
  have hothers : Keyed.size Entry.len (others Entry.type e.type es) ≤ Keyed.size Entry.len es :=
    size_le_of_sublist others_sublist
  unfold image_size
  rw [size_put]
  omega

theorem Spare.room {n : ℕ} (h : Spare A es (n + 1)) (he : e.len ≤ 512) : Room A e es := by
  have hsize := h.size
  have hnum := h.num
  have hle : image_size (Keyed.put Entry.type e es) ≤ image_size es + 512 := image_size_put_le he
  exact ⟨by omega, length_put_le.trans (by omega)⟩

theorem Spare.put {n : ℕ} (h : Spare A es (n + 1)) (he : e.len ≤ 512) :
    Spare A (put Entry.type e es) n := by
  have hsize := h.size
  have hnum := h.num
  have hle : image_size (Keyed.put Entry.type e es) ≤ image_size es + 512 := image_size_put_le he
  have hlen : (Keyed.put Entry.type e es).length ≤ es.length + 1 := length_put_le
  exact ⟨by omega, by omega⟩

/-- **A save** replaces its part. -/
theorem remembers_step (hF : F.Works A) (h : Remembers F A default s cfg) {op : Save}
    (hok : op.cfg.Ok) (hroom : Roomy A s op) :
    Remembers F A default (save F A s op) (cfg.keep op) := by
  obtain ⟨es, hram, -, htold⟩ := h
  obtain ⟨e, hbytes, htype, -, hkeep⟩ := saved_entry_spec hram htold.mac.vlanOk hok
  have hput := hroom es e hram hbytes
  obtain ⟨-, hflash', hram'⟩ := save_nor_spec (e := e) hF hram op.malloc
  rw [save_eq, ← hbytes, ← htype]
  exact ⟨_, .of_room hram' hput, .of_room hflash' hput, hkeep default cfg htold⟩

/-- There is room for each save of a run where there is room for that many entries. -/
theorem roomy_of_spare (hF : F.Works A) {ops : List Save} (hram : Contents A s.ram A.vctl_datap es)
    (htold : Says default es cfg) (hspare : Spare A es ops.length)
    (hok : ∀ op ∈ ops, op.cfg.Ok) :
    EveryStep (save F A) (fun s op => op.cfg.Ok ∧ Roomy A s op) s ops := by
  induction ops generalizing s es cfg with
  | nil => trivial
  | cons op ops ih =>
    obtain ⟨hop, hrest⟩ := List.forall_mem_cons.mp hok
    obtain ⟨e, hbytes, htype, hle, hkeep⟩ := saved_entry_spec hram htold.mac.vlanOk hop
    obtain ⟨-, -, hram'⟩ := save_nor_spec (e := e) hF hram op.malloc
    refine ⟨⟨hop, fun es' e' h' hbytes' => ?_⟩, ?_⟩
    · obtain rfl := hram.unique h' (by have := A.stop_lt; omega)
      obtain rfl := Entry.ext_bytes (hbytes.trans hbytes'.symm)
      exact hspare.room hle
    · rw [save_eq, ← hbytes, ← htype]
      exact ih (.of_room hram' (hspare.room hle)) (hkeep default cfg htold) (hspare.put hle) hrest

/-- **A reboot** finds what is remembered, whatever is in RAM. -/
theorem reboot_spec (h : Remembers F A default s cfg) (ram : ByteMem)
    (malloc₁ malloc₂ : Option ByteMem)
    (stack : ℕ → List UInt8) :
    (sys_init_cfg F A .nor (sys_vctl_init F A .nor ⟨s.flash, ram⟩ malloc₁) default stack
      malloc₂).2 =
      cfg := by
  obtain ⟨es, -, hflash, hmac, hip, hboot⟩ := h
  have hvlan : HasVlan es := by
    obtain ⟨e, -, -, -, -, -, hlook, hle, -⟩ := hmac
    exact ⟨e, hlook, hle⟩
  have hinit := (sys_vctl_init_spec (F := F) (s := ⟨s.flash, ram⟩) hflash .nor malloc₁).1 hvlan
  have hram := load_copy_contents (F := F) (s := ⟨s.flash, ram⟩) hflash
  obtain ⟨hstore, hmac0, hmac1⟩ := sys_get_vctl_mac_spec (F := F) hram hmac .nor (stack 0)
    (mac_bytes default.mac0, mac_bytes default.mac1) malloc₂
  simp only [sys_init_cfg, hinit, hstore, hmac0, hmac1, sys_get_vctl_ip_spec hram hip,
    sys_get_vctl_boot_file_spec hram hboot]

/-- **Settings survive**: after any run of saves with room for each, the next boot finds the
configuration with the parts replaced that were saved. -/
theorem saved_settings_found (hF : F.Works A) (h : Remembers F A default s cfg)
    {ops : List Save}
    (hops : EveryStep (save F A) (fun s op => op.cfg.Ok ∧ Roomy A s op) s ops)
    (ram : ByteMem) (malloc₁ malloc₂ : Option ByteMem) (stack : ℕ → List UInt8) :
    (sys_init_cfg F A .nor (sys_vctl_init F A .nor ⟨(ops.foldl (save F A) s).flash, ram⟩
      malloc₁) default stack malloc₂).2 = ops.foldl Cfg.keep cfg := by
  have hstep : ∀ s cfg (op : Save), Remembers F A default s cfg → op.cfg.Ok ∧ Roomy A s op →
      Remembers F A default (save F A s op) (cfg.keep op) := fun s cfg op hr hop =>
    remembers_step hF hr hop.1 hop.2
  exact reboot_spec (hops.simulates h hstep) ram malloc₁ malloc₂ stack

end Saving

/-! ## A board -/

/-- What the IDE board is compiled with. -/
def board_cfg : Cfg where
  mac0 := [0x00, 0x50, 0xc2, 0x11, 0x11, 0x11]
  mac1 := [0x00, 0x50, 0xc2, 0x22, 0x22, 0x22]
  ip := ⟨0xc0a800c8, 0xffffff00, 0xc0a800fe⟩
  boot := ⟨ascii ['z', 'I', 'm', 'a', 'g', 'e'], 0x01600000, ascii ['r', 'd', '.', 'g', 'z'],
    0x00800000⟩

/-- The configuration with another address of the board and another kernel. -/
def other_cfg : Cfg :=
  { board_cfg with
    ip := ⟨0x0a000001, 0xff000000, 0x0a0000fe⟩
    boot := { board_cfg.boot with f1_name := ascii ['2', ':', '1'] } }

theorem other_cfg_ok : other_cfg.Ok := by
  exact ⟨rfl, rfl, .of_all (by decide) (by decide), .of_all (by decide) (by decide)⟩

/-- Its boot files are saved, its address, and the files again. -/
def other_saves : List Save :=
  [.boot, .ip, .boot].map fun part => ⟨part, other_cfg, fun _ => 0, blank⟩

/-- After the first boot the store says what the board is compiled with. -/
theorem fresh_remembers : Remembers plain board_area board_cfg fresh board_cfg := by
  have hlook : lookup Entry.type VCT_VLAN [default_entry] = some default_entry := by
    simp [lookup, default_entry_type]
  obtain ⟨pre, mid, rest, hlay⟩ := vlan_layout (vctl_default_mac_addr 0) (vctl_default_mac_addr 1)
  have hnone : ∀ t, t ≠ VCT_VLAN → lookup Entry.type t [default_entry] = none := fun t ht => by
    simp [lookup, default_entry_type, ht.symm]
  refine ⟨[default_entry], fresh_wf.1.contents, fresh_wf.2.contents, ?_, .inr ⟨?_, rfl⟩,
    .inr ⟨?_, rfl⟩⟩
  · refine ⟨default_entry, pre, _, mid, _, rest, hlook,
      default_entry_len.trans_le (by decide), hlay,
      fun z => ?_⟩
    rw [read_mac_hex, read_mac_hex]
    exact ⟨rfl, rfl⟩
  · rw [hnone _ (by decide)]
    intro e he
    cases he
  · rw [hnone _ (by decide)]
    intro e he
    cases he

/-- What was saved is found when the board boots again. -/
theorem saved_settings_found_fresh :
    (sys_init_cfg plain board_area .nor (sys_vctl_init plain board_area .nor
      ⟨(other_saves.foldl (save plain board_area) fresh).flash, blank⟩ none) board_cfg
      (fun _ => []) none).2 = other_cfg := by
  have hspare : Spare board_area [default_entry] other_saves.length := by
    refine ⟨?_, by decide⟩
    rw [image_size, size_cons, size_nil, default_entry_len]
    decide
  have hok : ∀ op ∈ other_saves, op.cfg.Ok := by
    intro op hop
    obtain ⟨_, -, rfl⟩ := List.mem_map.mp hop
    exact other_cfg_ok
  obtain ⟨es, hram, -, htold⟩ := fresh_remembers
  obtain rfl := hram.unique fresh_wf.1.contents (by decide)
  exact saved_settings_found (plain_works board_area) fresh_remembers
    (roomy_of_spare (plain_works board_area) hram htold hspare hok) blank none none fun _ => []

end CsBoot.Vctl
