import LineScript.Text.Blank
import LineScript.Text.Word

/-!
# Excerpts

An expression is cut in very many places, and most pieces are only compared with pieces already
known. A piece is therefore taken from the text by its place in it, without a walk through the
characters before it or in it.

* `excerpt`: the part of a text between two positions;
* `excerpt_append`: between two parts lies what stands between them;
* `trimmed`: a text without the blanks at its ends, which is the text itself if there are none.
-/

namespace LineScript.Text

/-- The part of a text from one position to another, both in bytes. -/
def excerpt (s : String) (first last : Nat) : String :=
  String.Pos.Raw.extract s ⟨first⟩ ⟨last⟩

/-- A walk that collects as many bytes as `s` has collects `s`. -/
private theorem collect_self (s t : List Char) (i : Nat) :
    String.Pos.Raw.extract.go₂ (s ++ t) ⟨i⟩ ⟨i + byteSize s⟩ = s := by
  have hcons (c : Char) (r : List Char) (i e : String.Pos.Raw) :
      String.Pos.Raw.extract.go₂ (c :: r) i e =
        if i = e then [] else c :: String.Pos.Raw.extract.go₂ r (i + c) e := rfl
  induction s generalizing i with
  | nil =>
    cases t with
    | nil => rfl
    | cons c t => exact if_pos rfl
  | cons c s ih =>
    have hne : (⟨i⟩ : String.Pos.Raw) ≠ ⟨i + byteSize (c :: s)⟩ := by
      have := c.utf8Size_pos
      simp [String.Pos.Raw.ext_iff, byteSize]
      omega
    have hstep : (⟨i⟩ : String.Pos.Raw) + c = ⟨i + c.utf8Size⟩ := rfl
    rw [List.cons_append, hcons, if_neg hne, hstep, byteSize_cons, ← Nat.add_assoc, ih]

/-- A walk that skips characters collects from its first position on. -/
private theorem skip_cons (c : Char) (s : List Char) (i b e : String.Pos.Raw) :
    String.Pos.Raw.extract.go₁ (c :: s) i b e =
      if i = b then String.Pos.Raw.extract.go₂ (c :: s) i e
      else String.Pos.Raw.extract.go₁ s (i + c) b e := rfl

/-- A walk to the end of `s` skips exactly `s`. -/
private theorem skip_append (s t : List Char) (i : Nat) (e : String.Pos.Raw) :
    String.Pos.Raw.extract.go₁ (s ++ t) ⟨i⟩ ⟨i + byteSize s⟩ e =
      String.Pos.Raw.extract.go₁ t ⟨i + byteSize s⟩ ⟨i + byteSize s⟩ e := by
  induction s generalizing i with
  | nil => rfl
  | cons c s ih =>
    have hne : (⟨i⟩ : String.Pos.Raw) ≠ ⟨i + byteSize (c :: s)⟩ := by
      have := c.utf8Size_pos
      simp [String.Pos.Raw.ext_iff, byteSize]
      omega
    have hstep : (⟨i⟩ : String.Pos.Raw) + c = ⟨i + c.utf8Size⟩ := rfl
    rw [List.cons_append, skip_cons, if_neg hne, hstep, byteSize_cons, ← Nat.add_assoc, ih]

/-- Between two parts of a text lies what stands between them. -/
theorem excerpt_append (before inside after : List Char) :
    excerpt (String.ofList (before ++ inside ++ after)) (byteSize before)
      (byteSize before + byteSize inside) = String.ofList inside := by
  have hwalk (s : String) (first last : Nat) : excerpt s first last =
      if first ≥ last then ""
      else String.ofList (String.Pos.Raw.extract.go₁ s.toList 0 ⟨first⟩ ⟨last⟩) := rfl
  cases inside with
  | nil =>
    rw [byteSize_nil, Nat.add_zero, hwalk]
    exact if_pos (Nat.le_refl _)
  | cons c inside =>
    have hlt : ¬ byteSize before ≥ byteSize before + byteSize (c :: inside) := by
      have := c.utf8Size_pos
      simp [byteSize]
      omega
    have hskip := skip_append before (c :: inside ++ after) 0
      ⟨byteSize before + byteSize (c :: inside)⟩
    rw [Nat.zero_add] at hskip
    have hcollect := collect_self (c :: inside) after (byteSize before)
    rw [hwalk, if_neg hlt, String.toList_ofList, List.append_assoc]
    rw [show (0 : String.Pos.Raw) = ⟨0⟩ from rfl, hskip]
    rw [List.cons_append, skip_cons, if_pos rfl, ← List.cons_append, hcollect]

/-- Packing a text does not change its number of bytes. -/
@[simp]
theorem utf8ByteSize_ofList (s : List Char) : (String.ofList s).utf8ByteSize = byteSize s := by
  induction s with
  | nil => rfl
  | cons c s ih =>
    have happend : String.ofList (c :: s) = String.ofList [c] ++ String.ofList s := by
      rw [← String.ofList_append, List.singleton_append]
    have hsingle : (String.ofList [c]).utf8ByteSize = c.utf8Size := by
      rw [show String.ofList [c] = String.singleton c from rfl, String.utf8ByteSize_singleton]
    rw [happend, String.utf8ByteSize_append, hsingle, ih, byteSize_cons]

/-- The text without the blanks at its two ends. -/
def trimmed (s : String) : String :=
  if s.front?.any isBlank || s.back?.any isBlank then String.ofList (trim s.toList) else s

/-- A text with no blank at either end needs no trimming. -/
theorem trim_eq_self {s : List Char} (hfirst : ¬ s.head?.any isBlank)
    (hlast : ¬ s.getLast?.any isBlank) : trim s = s := by
  have hleft : trimLeft s = s := by
    cases s with
    | nil => rfl
    | cons c s =>
      have hc : ¬ isBlank c := by simpa using hfirst
      rw [trimLeft, List.dropWhile_cons, if_neg hc]
  rw [trim, hleft, trimRight]
  rw [← List.head?_reverse] at hlast
  cases h : s.reverse with
  | nil => simpa using h.symm
  | cons c r =>
    rw [h] at hlast
    have hc : ¬ isBlank c := by simpa using hlast
    rw [List.dropWhile_cons, if_neg hc, ← h, List.reverse_reverse]

/-- Both ways of trimming agree. -/
@[simp]
theorem toList_trimmed (s : String) : (trimmed s).toList = trim s.toList := by
  rw [trimmed, String.front?_eq, String.back?_eq]
  split
  · simp
  · next h =>
    rw [Bool.or_eq_true, not_or] at h
    exact (trim_eq_self h.1 h.2).symm

end LineScript.Text
