import YCStudio.Library.Cuts

namespace YCStudio

abbrev Str := List Char

instance : LawfulBEq Str := inferInstance

-- str.isspace: the characters that str.strip removes.
def isSpace (c : Char) : Bool :=
  (0x09 ≤ c.toNat && c.toNat ≤ 0x0D) || (0x1C ≤ c.toNat && c.toNat ≤ 0x20) ||
    c.toNat == 0x85 || c.toNat == 0xA0 || c.toNat == 0x1680 ||
    (0x2000 ≤ c.toNat && c.toNat ≤ 0x200A) || c.toNat == 0x2028 || c.toNat == 0x2029 ||
    c.toNat == 0x202F || c.toNat == 0x205F || c.toNat == 0x3000

-- The first digit of each run of decimal digits in Unicode 15.
def decimalZeros : List Nat :=
  [0x30, 0x660, 0x6f0, 0x7c0, 0x966, 0x9e6, 0xa66, 0xae6, 0xb66, 0xbe6, 0xc66, 0xce6, 0xd66, 0xde6,
    0xe50, 0xed0, 0xf20, 0x1040, 0x1090, 0x17e0, 0x1810, 0x1946, 0x19d0, 0x1a80, 0x1a90, 0x1b50,
    0x1bb0, 0x1c40, 0x1c50, 0xa620, 0xa8d0, 0xa900, 0xa9d0, 0xa9f0, 0xaa50, 0xabf0, 0xff10, 0x104a0,
    0x10d30, 0x11066, 0x110f0, 0x11136, 0x111d0, 0x112f0, 0x11450, 0x114d0, 0x11650, 0x116c0,
    0x11730, 0x118e0, 0x11950, 0x11c50, 0x11d50, 0x11da0, 0x11f50, 0x16a60, 0x16ac0, 0x16b50,
    0x1d7ce, 0x1d7d8, 0x1d7e2, 0x1d7ec, 0x1d7f6, 0x1e140, 0x1e2f0, 0x1e4f0, 0x1e950, 0x1fbf0]

def digitValue (c : Char) : Option Nat :=
  (decimalZeros.find? fun first => first ≤ c.toNat ∧ c.toNat < first + 10).map (c.toNat - ·)

namespace Str

def strip (s : Str) : Str := Trim.strip isSpace s

def essence (s : Str) : Str := Trim.essence isSpace s

def split (s sep : Str) : List Str := Trim.cut sep s

theorem split_singleton (s : Str) (c : Char) : split s [c] = s.splitOn c := Trim.cut_singleton c s

@[simp] theorem essence_nil : essence [] = [] := rfl

@[simp] theorem essence_append (s t : Str) : essence (s ++ t) = essence s ++ essence t :=
  Trim.essence_append isSpace s t

@[simp] theorem essence_newline (s : Str) : essence ('\n' :: s) = essence s :=
  Trim.essence_cons_blank isSpace (by decide) s

@[simp] theorem essence_strip (s : Str) : essence (strip s) = essence s :=
  Trim.essence_strip isSpace s

@[simp] theorem strip_strip (s : Str) : strip (strip s) = strip s := Trim.strip_strip isSpace s

theorem strip_eq_nil_iff {s : Str} : strip s = [] ↔ ∀ c ∈ s, isSpace c :=
  Trim.strip_eq_nil_iff isSpace

theorem strip_subset (s : Str) : strip s ⊆ s := fun _ => Trim.mem_of_mem_strip isSpace

theorem length_strip_le (s : Str) : (strip s).length ≤ s.length := Trim.length_strip_le isSpace s

theorem strip_append_cons {s t : Str} (hs : strip s = s) (hs' : s ≠ []) (ht : strip t = t)
    (ht' : t ≠ []) (c : Char) : strip (s ++ c :: t) = s ++ c :: t := by
  have h := Trim.strip_append hs hs' ht ht' [c]
  rwa [List.append_assoc, List.singleton_append] at h

theorem essence_ne_nil {s : Str} (hstripped : strip s = s) (hne : s ≠ []) : essence s ≠ [] := by
  intro h
  have hblank := (Trim.essence_eq_nil_iff isSpace).mp h
  exact hne (hstripped ▸ strip_eq_nil_iff.mpr hblank)

theorem essence_flatten_filter (ss : List Str) :
    essence (ss.filter (· ≠ [])).flatten = essence ss.flatten := by
  induction ss with
  | nil => rfl
  | cons s ss ih =>
    by_cases hs : s = []
    · simpa [hs] using ih
    · simpa [hs] using ih

theorem essence_flatten_of_forall₂ {parts : List Str} {results : List (List Str)}
    (h : List.Forall₂ (fun part result => essence result.flatten = essence part)
      parts results) : essence results.flatten.flatten = essence parts.flatten := by
  induction h with
  | nil => rfl
  | cons hpart _ ih => simp [hpart, ih]

end Str

end YCStudio
