import Mathlib.Data.List.Basic
import Wiretap.Packet.HexDump
import Wiretap.Proofs.Text.Digits
import Wiretap.Proofs.Text.Encoding

/-! A hex dump can be read. A line feed ends each line and stands nowhere else, the first colon of
a line stands behind its offset, and the hex column has the same width in every line, so the
groups of digits can be told from the sidebar, whatever that shows. They are the bytes. -/

set_option autoImplicit false

namespace Wiretap.HexDump
open Wiretap.Text

def linesOf (dump : String) : List (List Char) := (dump.toList.splitOn '\n').dropLast

def columnOf (line : List Char) : List Char := ((line.dropWhile (· ≠ ':')).drop 2).take 49

def groups (cs : List Char) : List (List Char) := (cs.splitOn ' ').filter (· ≠ [])

def groupsOf (dump : String) : List (List Char) :=
  (linesOf dump).flatMap fun line => groups (columnOf line)

def shown (b : UInt8) : Char :=
  if 0x20 ≤ b.toNat ∧ b.toNat ≤ 0x7E then Char.ofNat b.toNat else '.'

def piece (bs : Bytes) (k : Nat) : Bytes := (bs.drop (16 * k)).take 16

structure Laid (bs : Bytes) (k : Nat) (line : List Char) : Prop where
  parts : line = Hex.numeral 4 (16 * k) ++ [':', ' '] ++ columnOf line ++ [' '] ++
    (piece bs k).map shown
  width : (columnOf line).length = 49

/-- What a dump of `bs` is made of, and what can be read from it. -/
structure Dumped (bs : Bytes) : Prop where
  ended : (text bs).toList = (linesOf (text bs)).flatMap (· ++ ['\n'])
  count : (linesOf (text bs)).length = (bs.length + 15) / 16
  laid : ∀ k line, (linesOf (text bs))[k]? = some line → Laid bs k line
  grouped : groupsOf (text bs) = bs.map Hex.upperByte
  read : Hex.read? (groupsOf (text bs)).flatten = some bs
  agrees : (groupsOf (text bs)).flatten = (compact bs).toList
  compact_read : Hex.read? (compact bs).toList = some bs

section
variable {bytes : Bytes} {c sep : Char} {k : Nat}

theorem chunksFrom_flatten (done : List Bytes) (bs : Bytes) :
    (chunksFrom lineWidth (by decide) done bs).flatten = done.reverse.flatten ++ bs := by
  fun_induction chunksFrom lineWidth (by decide) done bs with
  | case1 done => simp
  | case2 done b bs ih =>
    rw [ih, List.reverse_cons, List.flatten_concat, List.append_assoc, List.take_append_drop]

theorem piece_zero (bs : Bytes) : piece bs 0 = bs.take lineWidth := rfl

theorem piece_succ (bs : Bytes) (k : Nat) : piece bs (k + 1) = piece (bs.drop lineWidth) k := by
  rw [piece, piece, List.drop_drop, Nat.mul_succ, Nat.add_comm, lineWidth]

theorem chunksFrom_eq (done : List Bytes) (bs : Bytes) :
    chunksFrom lineWidth (by decide) done bs =
      done.reverse ++ (List.range ((bs.length + 15) / 16)).map (piece bs) := by
  fun_induction chunksFrom lineWidth (by decide) done bs with
  | case1 done => simp
  | case2 done b bs ih =>
    have hcount : ((b :: bs).length + 15) / 16 =
        (((b :: bs).drop lineWidth).length + 15) / 16 + 1 := by
      rw [List.length_drop, List.length_cons, lineWidth]
      omega
    rw [ih, hcount, List.range_succ_eq_map, List.map_cons, List.map_map, piece_zero,
      List.reverse_cons, List.append_assoc, List.singleton_append]
    exact congrArg _ (congrArg _ (List.map_congr_left fun k _ => (piece_succ _ k).symm))

theorem chunks_eq (bs : Bytes) :
    chunks bs = (List.range ((bs.length + 15) / 16)).map (piece bs) := chunksFrom_eq [] bs

theorem pieces_flatten (bs : Bytes) :
    (List.range ((bs.length + 15) / 16)).flatMap (piece bs) = bs := by
  rw [List.flatMap_def, ← chunks_eq]
  exact chunksFrom_flatten [] bs

theorem piece_length (bs : Bytes) (k : Nat) : (piece bs k).length ≤ 16 := List.length_take_le ..

theorem range_at {n i k : Nat} (h : (List.range n)[k]? = some i) : i = k := by
  obtain ⟨_, hk⟩ := List.getElem?_eq_some_iff.mp h
  rw [← hk, List.getElem_range]

def body (k : Nat) (bytes : Bytes) : List Char :=
  offsetText k ++ [':', ' '] ++ hexColumn bytes ++ [' '] ++ sidebar bytes

def bodies (bs : Bytes) : List (List Char) :=
  (List.range ((bs.length + 15) / 16)).map fun k => body k (piece bs k)

theorem mapIdx_range {α β : Type} (f : Nat → α) (g : Nat → α → β) (n : Nat) :
    ((List.range n).map f).mapIdx g = (List.range n).map fun k => g k (f k) := by
  apply List.ext_getElem?
  intro k
  rw [List.getElem?_mapIdx, List.getElem?_map, List.getElem?_map]
  cases h : (List.range n)[k]? with
  | none => rfl
  | some i =>
    obtain rfl := range_at h
    rfl

theorem text_eq (bs : Bytes) : (text bs).toList = (bodies bs).flatMap (· ++ ['\n']) := by
  have hline (k : Nat) :
      (String.ofList (line k (piece bs k))).toList = body k (piece bs k) ++ ['\n'] :=
    String.toList_ofList
  rw [text, String.toList_join, lines, chunks_eq, mapIdx_range, List.flatMap_map, funext hline,
    bodies, List.flatMap_map]

theorem digit_plain (h : c ∈ Hex.upperDigits) : c ≠ '\n' ∧ c ≠ ':' ∧ c ≠ ' ' := by
  have hall : Hex.upperDigits.all (fun d => d ≠ '\n' ∧ d ≠ ':' ∧ d ≠ ' ') = true := by decide
  exact of_decide_eq_true (List.all_eq_true.mp hall c h)

theorem offset_mem (h : c ∈ offsetText k) : c ∈ Hex.upperDigits := by
  rw [offsetText, Hex.upperNat_numeral _ (by decide)] at h
  exact Hex.mem_numeral h

theorem upperByte_mem {b : UInt8} (h : c ∈ Hex.upperByte b) : c ∈ Hex.upperDigits := by
  have hb := b.toNat_lt
  simp only [Hex.upperByte, List.mem_cons, List.not_mem_nil, or_false] at h
  obtain rfl | rfl := h <;> exact Hex.upperDigit_mem (by omega)

theorem cell_length (bytes : Bytes) (i : Nat) :
    (cell bytes i).length = if i = 7 then 4 else 3 := by
  unfold cell
  split <;> split <;> rfl

theorem hexColumn_length (bytes : Bytes) : (hexColumn bytes).length = 49 := by
  rw [hexColumn, List.length_flatMap, funext (cell_length bytes)]
  rfl

theorem hexColumn_mem (h : c ∈ hexColumn bytes) : c ∈ Hex.upperDigits ∨ c = ' ' := by
  obtain ⟨i, -, hi⟩ := List.mem_flatMap.mp h
  obtain hbyte | hgap := List.mem_append.mp hi
  · cases hb : bytes[i]? with
    | some b =>
      simp only [hb, List.mem_append, List.mem_singleton] at hbyte
      exact hbyte.imp_left upperByte_mem
    | none => exact .inr (by simpa [hb] using hbyte)
  · exact .inr (by split at hgap <;> simp_all)

theorem shown_ne (b : UInt8) : shown b ≠ '\n' := by
  unfold shown
  split
  · next h =>
    rw [ne_eq, ← Char.toNat_inj, Utf8.toNat_ofNat_valid (.inl (by omega))]
    exact fun hb : b.toNat = 10 => by omega
  · decide

theorem sidebar_eq (bytes : Bytes) : sidebar bytes = bytes.map shown :=
  List.map_congr_left fun b _ => if_congr
    (by simp [Packet.isPrintableByte, UInt8.le_iff_toNat_le]) rfl rfl

theorem body_unbroken (k : Nat) (bytes : Bytes) : '\n' ∉ body k bytes := by
  have hoffset : '\n' ∉ offsetText k := fun h => (digit_plain (offset_mem h)).1 rfl
  have hcolumn : '\n' ∉ hexColumn bytes := fun h =>
    (hexColumn_mem h).elim (fun hd => (digit_plain hd).1 rfl) (by decide)
  have hsidebar : '\n' ∉ sidebar bytes := by
    rw [sidebar_eq]
    intro h
    obtain ⟨b, -, hb⟩ := List.mem_map.mp h
    exact shown_ne b hb
  simp [body, hoffset, hcolumn, hsidebar]

theorem splitOn_ended {ls : List (List Char)} (h : ∀ l ∈ ls, sep ∉ l) :
    (ls.flatMap (· ++ [sep])).splitOn sep = ls ++ [[]] := by
  induction ls with
  | nil => rfl
  | cons l ls ih =>
    rw [List.flatMap_cons, List.append_assoc, List.singleton_append,
      List.splitOn_append_cons_self_of_not_mem (h l (List.mem_cons_self ..)),
      ih fun m hm => h m (List.mem_cons_of_mem _ hm), List.cons_append]

theorem linesOf_text (bs : Bytes) : linesOf (text bs) = bodies bs := by
  rw [linesOf, text_eq, splitOn_ended, List.dropLast_concat]
  intro l hl
  obtain ⟨k, -, rfl⟩ := List.mem_map.mp hl
  exact body_unbroken k _

theorem columnOf_body (k : Nat) (bytes : Bytes) : columnOf (body k bytes) = hexColumn bytes := by
  -- The sidebar may show colons, but the first one stands before it: the offset has none.
  have hoffset : ∀ c ∈ offsetText k, decide (c ≠ ':') = true := fun c hc =>
    decide_eq_true (digit_plain (offset_mem hc)).2.1
  have hbody : body k bytes =
      offsetText k ++ ([':', ' '] ++ (hexColumn bytes ++ ([' '] ++ sidebar bytes))) := by
    simp only [body, List.append_assoc]
  rw [columnOf, hbody, List.dropWhile_append_of_pos hoffset]
  exact List.take_left' (hexColumn_length bytes)

theorem groups_blank (cs : List Char) : groups (' ' :: cs) = groups cs := by
  rw [groups, ← List.nil_append (' ' :: cs),
    List.splitOn_append_cons_self_of_not_mem (by simp)]
  rfl

theorem groups_word {word : List Char} (cs : List Char) (hblank : ' ' ∉ word) (hword : word ≠ []) :
    groups (word ++ ' ' :: cs) = word :: groups cs := by
  rw [groups, List.splitOn_append_cons_self_of_not_mem hblank,
    List.filter_cons_of_pos (by simpa using hword), groups]

theorem groups_cell (bytes : Bytes) (i : Nat) (cs : List Char) :
    groups (cell bytes i ++ cs) = (bytes[i]?.map Hex.upperByte).toList ++ groups cs := by
  -- The gap after the eighth byte is one blank more, and groups do not count blanks.
  have hgap : groups ((if i = 7 then [' '] else []) ++ cs) = groups cs := by
    split
    · exact groups_blank cs
    · rfl
  rw [cell, List.append_assoc]
  cases bytes[i]? with
  | some b =>
    have hblank : ' ' ∉ Hex.upperByte b := fun h => (digit_plain (upperByte_mem h)).2.2 rfl
    rw [List.append_assoc, List.singleton_append, groups_word _ hblank (List.cons_ne_nil _ _), hgap]
    rfl
  | none =>
    simp only [List.cons_append, List.nil_append, groups_blank, hgap]
    rfl

theorem groups_cells (bytes : Bytes) (is : List Nat) :
    groups (is.flatMap (cell bytes)) = is.filterMap fun i => bytes[i]?.map Hex.upperByte := by
  induction is with
  | nil => rfl
  | cons i is ih =>
    rw [List.flatMap_cons, groups_cell, ih, List.filterMap_cons]
    cases bytes[i]?.map Hex.upperByte <;> rfl

theorem take_entries (bytes : Bytes) (n : Nat) :
    ((List.range n).filterMap fun i => bytes[i]?) = bytes.take n := by
  induction n with
  | zero => rfl
  | succ n ih =>
    rw [List.range_succ, List.filterMap_append, ih, List.take_add_one]
    cases h : bytes[n]? <;> simp [h]

theorem groups_hexColumn (h : bytes.length ≤ 16) :
    groups (hexColumn bytes) = bytes.map Hex.upperByte := by
  rw [hexColumn, groups_cells, ← List.map_filterMap, take_entries, lineWidth,
    List.take_of_length_le h]

theorem groupsOf_text (bs : Bytes) : groupsOf (text bs) = bs.map Hex.upperByte := by
  have hline (k : Nat) :
      groups (columnOf (body k (piece bs k))) = (piece bs k).map Hex.upperByte := by
    rw [columnOf_body, groups_hexColumn (piece_length bs k)]
  rw [groupsOf, linesOf_text, bodies, List.flatMap_map, funext hline, ← List.map_flatMap,
    pieces_flatten]

theorem compact_digits (bs : Bytes) : (compact bs).toList = bs.flatMap Hex.upperByte :=
  String.toList_ofList

theorem body_laid (bs : Bytes) (k : Nat) : Laid bs k (body k (piece bs k)) where
  parts := by
    rw [columnOf_body, ← sidebar_eq, ← Hex.upperNat_numeral _ (by decide), body, offsetText,
      lineWidth]
  width := by rw [columnOf_body, hexColumn_length]

theorem dumped (bs : Bytes) : Dumped bs := by
  have hdigits : (groupsOf (text bs)).flatten = bs.flatMap Hex.upperByte := by
    rw [groupsOf_text, List.flatMap_def]
  exact {
    ended := by rw [linesOf_text, text_eq]
    count := by rw [linesOf_text, bodies, List.length_map, List.length_range]
    laid := by
      intro k line h
      rw [linesOf_text, bodies, List.getElem?_map] at h
      obtain ⟨i, hi, rfl⟩ := Option.map_eq_some_iff.mp h
      obtain rfl := range_at hi
      exact body_laid bs i
    grouped := groupsOf_text bs
    read := hdigits ▸ Hex.read_upper bs
    agrees := hdigits.trans (compact_digits bs).symm
    compact_read := (compact_digits bs).symm ▸ Hex.read_upper bs }

end

/-- A dump shows every byte, in a form that is read without loss, and the compact form has the same
digits. Two payloads of one dump are one payload. -/
theorem dump_lossless :
    (∀ bs, Dumped bs) ∧ Function.Injective text ∧ Function.Injective compact := by
  have htext : (fun dump => Hex.read? (groupsOf dump).flatten) ∘ text = some :=
    funext fun bs => (dumped bs).read
  have hcompact : (fun digits : String => Hex.read? digits.toList) ∘ compact = some :=
    funext fun bs => (dumped bs).compact_read
  have hsome := Option.some_injective Bytes
  exact ⟨dumped, .of_comp (htext ▸ hsome), .of_comp (hcompact ▸ hsome)⟩

end Wiretap.HexDump
