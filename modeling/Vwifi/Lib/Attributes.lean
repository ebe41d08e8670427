import Vwifi.Lib.LittleEndian
import Vwifi.Lib.Patch

/-!
# Attribute lists

A list of attributes in memory: each one has a header of four bytes, its length
without the padding and its type, and takes a multiple of four bytes. `layout`
writes such a list. `scan` walks over any bytes and stops at the first attribute
that does not fit into what is left: it looks at the headers only.
-/

namespace Attributes

set_option autoImplicit false

open LittleEndian Patch

def headerSize : Nat := 4

def align (n : Nat) : Nat := (n + 3) / 4 * 4

/-- The two highest bits of the type field are flags. -/
structure Attribute where
  type : Nat
  payload : List UInt8
  typeFits : type < 2 ^ 14
  lengthFits : headerSize + payload.length < 2 ^ 16
deriving DecidableEq

namespace Attribute

def length (a : Attribute) : Nat := headerSize + a.payload.length

def bytes (a : Attribute) : List UInt8 := image 2 a.length ++ image 2 a.type ++ a.payload

def padded (a : Attribute) : List UInt8 :=
  a.bytes ++ List.replicate (align a.length - a.length) 0

end Attribute

def layout (attributes : List Attribute) : List UInt8 := attributes.flatMap Attribute.padded

/-- Where an attribute stands. -/
structure Entry where
  type : Nat
  position : Nat
  length : Nat
deriving DecidableEq

def scan : Nat → Nat → List UInt8 → List Entry
  | 0, _, _ => []
  | fuel + 1, position, bytes =>
    let length := value (bytes.take 2)
    if headerSize ≤ bytes.length ∧ headerSize ≤ length ∧ length ≤ bytes.length then
      ⟨value ((bytes.drop 2).take 2) % 2 ^ 14, position, length⟩ ::
        scan fuel (position + align length) (bytes.drop (align length))
    else []

/-- A scan that takes the type field as it is. -/
def scanRaw : Nat → Nat → List UInt8 → List Entry
  | 0, _, _ => []
  | fuel + 1, position, bytes =>
    let length := value (bytes.take 2)
    if headerSize ≤ bytes.length ∧ headerSize ≤ length ∧ length ≤ bytes.length then
      ⟨value ((bytes.drop 2).take 2), position, length⟩ ::
        scanRaw fuel (position + align length) (bytes.drop (align length))
    else []

/-- The entries of a list that is laid out from a position on. -/
def entriesOf : Nat → List Attribute → List Entry
  | _, [] => []
  | position, a :: rest =>
    ⟨a.type, position, a.length⟩ :: entriesOf (position + align a.length) rest

/-- The attribute of a type that counts. -/
def last (type : Nat) (attributes : List Attribute) : Option Attribute :=
  attributes.reverse.find? (·.type = type)

/-- The last attribute of a type is the one that counts. -/
def lookup (entries : List Entry) (type : Nat) : Option Entry :=
  entries.reverse.find? (·.type = type)

theorem le_align (n : Nat) : n ≤ align n := by
  unfold align
  omega

namespace Attribute

theorem bytes_length (a : Attribute) : a.bytes.length = a.length := by
  simp only [bytes, List.length_append, image_length, length, headerSize]

theorem padded_length (a : Attribute) : a.padded.length = align a.length := by
  have hle := le_align a.length
  rw [padded, List.length_append, bytes_length, List.length_replicate]
  omega

end Attribute

theorem layout_length (attributes : List Attribute) :
    (layout attributes).length = (attributes.map fun a => align a.length).sum := by
  induction attributes with
  | nil => rfl
  | cons a attributes ih =>
    rw [layout, List.flatMap_cons, List.length_append, a.padded_length, List.map_cons,
      List.sum_cons, ← ih, layout]

/-- Every entry of a scan lies within the bytes. -/
theorem scan_inside {fuel position : Nat} {bytes : List UInt8} {e : Entry}
    (h : e ∈ scan fuel position bytes) :
    position ≤ e.position ∧ headerSize ≤ e.length ∧
      e.position + e.length ≤ position + bytes.length := by
  induction fuel generalizing position bytes with
  | zero => cases h
  | succ fuel ih =>
    rw [scan] at h
    split at h
    · rename_i hfits
      rcases List.mem_cons.mp h with rfl | h
      · refine ⟨Nat.le_refl _, hfits.2.1, ?_⟩
        exact Nat.add_le_add_left hfits.2.2 position
      · obtain ⟨hposition, hlength, hend⟩ := ih h
        have hstep := le_align (value (bytes.take 2))
        rw [List.length_drop] at hend
        refine ⟨by omega, hlength, ?_⟩
        -- an attribute whose padding is cut off is the last one
        by_cases hcut : align (value (bytes.take 2)) ≤ bytes.length
        · omega
        · have hnil : bytes.drop (align (value (bytes.take 2))) = [] :=
            List.drop_eq_nil_of_le (by omega)
          rw [hnil] at h
          cases fuel with
          | zero => cases h
          | succ fuel => simp [scan, headerSize] at h
    · cases h

/-- An entry of a scan has the length its first two bytes say. -/
theorem scan_length {fuel position : Nat} {bytes : List UInt8} {e : Entry}
    (h : e ∈ scan fuel position bytes) :
    value ((bytes.drop (e.position - position)).take 2) = e.length := by
  induction fuel generalizing position bytes with
  | zero => cases h
  | succ fuel ih =>
    rw [scan] at h
    split at h
    · rcases List.mem_cons.mp h with rfl | h
      · dsimp only
        rw [Nat.sub_self, List.drop_zero]
      · have hle := (scan_inside h).1
        rw [← ih h, List.drop_drop]
        congr 3
        omega
    · cases h

/-- The entries of a scan lie one behind the other. -/
theorem scan_apart {fuel position : Nat} {bytes : List UInt8} {e e' : Entry}
    (he : e ∈ scan fuel position bytes) (he' : e' ∈ scan fuel position bytes) (hne : e ≠ e') :
    e.position + e.length ≤ e'.position ∨ e'.position + e'.length ≤ e.position := by
  induction fuel generalizing position bytes with
  | zero => cases he
  | succ fuel ih =>
    have hstep := le_align (value (bytes.take 2))
    rw [scan] at he he'
    split at he
    · rename_i hfits
      rw [if_pos hfits] at he'
      rcases List.mem_cons.mp he with rfl | he
      · rcases List.mem_cons.mp he' with rfl | he'
        · exact absurd rfl hne
        · have hposition := (scan_inside he').1
          exact .inl (by dsimp only; omega)
      · rcases List.mem_cons.mp he' with rfl | he'
        · have hposition := (scan_inside he).1
          exact .inr (by dsimp only; omega)
        · exact ih he he'
    · cases he

/-- The payload of an attribute does not matter to the scan. -/
theorem scan_payload {fuel position : Nat} {bytes bytes' : List UInt8} {e : Entry}
    (he : e ∈ scan fuel position bytes)
    (h : SameOutside (e.position - position + headerSize) (e.position - position + e.length)
      bytes bytes') :
    scan fuel position bytes' = scan fuel position bytes := by
  induction fuel generalizing position bytes bytes' with
  | zero => cases he
  | succ fuel ih =>
    have hlength : bytes'.take 2 = bytes.take 2 :=
      h.window (k := 0) (.inl (by rw [headerSize]; omega))
    have htype : (bytes'.drop 2).take 2 = (bytes.drop 2).take 2 :=
      h.window (.inl (by rw [headerSize]; omega))
    have hstep := le_align (value (bytes.take 2))
    rw [scan] at he
    rw [scan, scan, hlength, htype, h.length]
    split
    · rename_i hfits
      rw [if_pos hfits] at he
      congr 1
      rcases List.mem_cons.mp he with rfl | he
      · rw [h.drop_eq (by dsimp only; omega)]
      · have hposition := (scan_inside he).1
        apply ih he
        have hdrop := h.drop (k := align (value (bytes.take 2))) (by omega)
        refine hdrop.mono ?_ ?_
        · omega
        · omega
    · rfl

theorem lookup_mem {entries : List Entry} {type : Nat} {e : Entry}
    (h : lookup entries type = some e) : e ∈ entries ∧ e.type = type := by
  have htype := List.find?_some h
  have hmem := List.mem_of_find?_eq_some h
  rw [decide_eq_true_eq] at htype
  exact ⟨List.mem_reverse.mp hmem, htype⟩

/-! ## Scans without a mask -/

/-- The two scans find entries at the same places. -/
theorem scan_eq_map (fuel position : Nat) (bytes : List UInt8) :
    scan fuel position bytes =
      (scanRaw fuel position bytes).map fun e => { e with type := e.type % 2 ^ 14 } := by
  induction fuel generalizing position bytes with
  | zero => rfl
  | succ fuel ih =>
    rw [scan, scanRaw]
    split
    · rw [List.map_cons, ih]
    · rfl

theorem scanRaw_masked {fuel position : Nat} {bytes : List UInt8} {e : Entry}
    (h : e ∈ scanRaw fuel position bytes) :
    { e with type := e.type % 2 ^ 14 } ∈ scan fuel position bytes := by
  rw [scan_eq_map]
  exact List.mem_map_of_mem h

theorem scanRaw_inside {fuel position : Nat} {bytes : List UInt8} {e : Entry}
    (h : e ∈ scanRaw fuel position bytes) :
    position ≤ e.position ∧ headerSize ≤ e.length ∧
      e.position + e.length ≤ position + bytes.length := by
  have hinside := scan_inside (scanRaw_masked h)
  exact hinside

theorem scanRaw_length {fuel position : Nat} {bytes : List UInt8} {e : Entry}
    (h : e ∈ scanRaw fuel position bytes) :
    value ((bytes.drop (e.position - position)).take 2) = e.length := by
  have hlength := scan_length (scanRaw_masked h)
  exact hlength

theorem scanRaw_type {fuel position : Nat} {bytes : List UInt8} {e : Entry}
    (h : e ∈ scanRaw fuel position bytes) :
    value ((bytes.drop (e.position - position + 2)).take 2) = e.type := by
  induction fuel generalizing position bytes with
  | zero => cases h
  | succ fuel ih =>
    rw [scanRaw] at h
    split at h
    · rcases List.mem_cons.mp h with rfl | h
      · dsimp only
        rw [Nat.sub_self, Nat.zero_add]
      · have hle := (scanRaw_inside h).1
        rw [← ih h, List.drop_drop]
        congr 3
        omega
    · cases h

theorem lookup_cons (e : Entry) (entries : List Entry) (type : Nat) :
    lookup (e :: entries) type =
      (lookup entries type).or (if e.type = type then some e else none) := by
  rw [lookup, List.reverse_cons, List.find?_append, lookup]
  congr 1
  by_cases htype : e.type = type
  · simp [htype]
  · simp [htype]

theorem last_cons (a : Attribute) (attributes : List Attribute) (type : Nat) :
    last type (a :: attributes) =
      (last type attributes).or (if a.type = type then some a else none) := by
  rw [last, List.reverse_cons, List.find?_append, last]
  congr 1
  by_cases htype : a.type = type
  · simp [htype]
  · simp [htype]

/-! ## What is laid out is found -/

namespace Attribute

theorem bytes_take (a : Attribute) (rest : List UInt8) :
    value ((a.bytes ++ rest).take 2) = a.length := by
  have hfits : a.length < 256 ^ 2 := a.lengthFits
  rw [bytes, List.append_assoc, List.append_assoc, List.take_left' (image_length 2 _),
    value_image_of_lt hfits]

theorem bytes_type (a : Attribute) (rest : List UInt8) :
    value (((a.bytes ++ rest).drop 2).take 2) = a.type := by
  have hfits : a.type < 256 ^ 2 := Nat.lt_trans a.typeFits (by decide)
  rw [bytes, List.append_assoc, List.append_assoc, List.drop_left' (image_length 2 _),
    List.take_left' (image_length 2 _), value_image_of_lt hfits]

theorem padded_append (a : Attribute) (rest : List UInt8) :
    ∃ behind, a.padded ++ rest = a.bytes ++ behind := by
  refine ⟨List.replicate (align a.length - a.length) 0 ++ rest, ?_⟩
  rw [padded, List.append_assoc]

end Attribute

theorem scanRaw_layout {fuel position : Nat} {attributes : List Attribute}
    (hfuel : attributes.length ≤ fuel) :
    scanRaw fuel position (layout attributes) = entriesOf position attributes := by
  induction attributes generalizing fuel position with
  | nil =>
    cases fuel with
    | zero => rfl
    | succ fuel => rfl
  | cons a attributes ih =>
    obtain ⟨fuel, rfl⟩ := Nat.exists_eq_add_of_le' (Nat.lt_of_lt_of_le (Nat.succ_pos _) hfuel)
    have hcons : layout (a :: attributes) = a.padded ++ layout attributes := rfl
    obtain ⟨behind, hbehind⟩ := a.padded_append (layout attributes)
    have hlength : (layout (a :: attributes)).length =
        align a.length + (layout attributes).length := by
      rw [hcons, List.length_append, a.padded_length]
    have hle := le_align a.length
    have hheader : headerSize ≤ a.length := Nat.le_add_right _ _
    rw [scanRaw, hlength, hcons, hbehind, a.bytes_take, a.bytes_type, if_pos (by omega), ← hbehind,
      List.drop_left' a.padded_length, ih (Nat.le_of_succ_le_succ hfuel), entriesOf]

/-- Of each type the entry of the last attribute is found, with the bytes of it. -/
theorem lookup_entriesOf (position : Nat) (attributes : List Attribute) (type : Nat) :
    match last type attributes with
    | none => lookup (entriesOf position attributes) type = none
    | some a => ∃ e, lookup (entriesOf position attributes) type = some e ∧
        position ≤ e.position ∧ e.length = a.length ∧
          ∃ behind, (layout attributes).drop (e.position - position) = a.bytes ++ behind := by
  induction attributes generalizing position with
  | nil => rfl
  | cons a attributes ih =>
    have hcons : layout (a :: attributes) = a.padded ++ layout attributes := rfl
    have hrest := ih (position + align a.length)
    rw [last_cons, entriesOf, lookup_cons]
    cases hlast : last type attributes with
    | some b =>
      rw [hlast] at hrest
      obtain ⟨e, hlookup, hposition, hlength, behind, hbytes⟩ := hrest
      refine ⟨e, ?_, by omega, hlength, behind, ?_⟩
      · rw [hlookup]
        rfl
      · have hsplit : e.position - position =
            a.padded.length + (e.position - (position + align a.length)) := by
          rw [a.padded_length]
          omega
        rw [hcons, hsplit, List.drop_length_add_append]
        exact hbytes
    | none =>
      rw [hlast] at hrest
      rw [hrest, Option.none_or, Option.none_or]
      by_cases htype : a.type = type
      · rw [if_pos htype, if_pos htype]
        obtain ⟨behind, hbehind⟩ := a.padded_append (layout attributes)
        refine ⟨_, rfl, Nat.le_refl _, rfl, behind, ?_⟩
        rw [hcons, Nat.sub_self, List.drop_zero, hbehind]
      · rw [if_neg htype, if_neg htype]

end Attributes
