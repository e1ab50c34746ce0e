import Mathlib.Data.List.TakeWhile
import ImportAtlas.Python.Import

/-!
# Cleaning dotted names

A dotted name is cleaned by trimming the texts between its dots. So white space next to a dot and at the
two ends makes no difference, and what is neither white space nor a dot stays.

Main results:

* `ImportAtlas.Python.dottedText_append_dot` — the texts before and behind a dot are cleaned apart;
* `ImportAtlas.Python.dottedText_blank_append`, `ImportAtlas.Python.dottedText_append_blank` — **white
  space at the ends makes no difference**;
* `ImportAtlas.Python.mem_dottedText` — other characters stay.
-/

set_option autoImplicit false

namespace ImportAtlas

namespace Text

variable {a b : List Char}

theorem trim_blank_append (ha : ∀ c ∈ a, isBlank c = true) : trim (a ++ b) = trim b := by
  rw [trim, trim, List.dropWhile_append_of_pos ha]

theorem trim_append_blank (hb : ∀ c ∈ b, isBlank c = true) : trim (a ++ b) = trim a := by
  rw [trim, trim, List.dropWhile_append]
  split
  · next hnil =>
      rw [List.isEmpty_iff] at hnil
      rw [hnil, List.dropWhile_eq_nil_iff.2 hb]
  · rw [List.reverse_append, List.dropWhile_append_of_pos (by simpa using hb)]

/-- Characters other than white space are not trimmed. -/
theorem mem_trim {c : Char} (hc : c ∈ a) (hblank : isBlank c = false) : c ∈ trim a := by
  have hkeep : ∀ {l : List Char}, c ∈ l → c ∈ l.dropWhile isBlank := by
    intro l hl
    induction l with
    | nil => exact hl
    | cons d l ih =>
        rw [List.dropWhile_cons]
        split
        · next hd =>
            rcases List.mem_cons.1 hl with rfl | hl
            · rw [hblank] at hd
              cases hd
            · exact ih hl
        · exact hl
  rw [trim, List.mem_reverse]
  exact hkeep (List.mem_reverse.2 (hkeep hc))

end Text

namespace Python

open ImportAtlas.Text

theorem dottedText_of_not_mem {text : List Char} (h : '.' ∉ text) : dottedText text = trim text := by
  simp [dottedText, List.splitOn_eq_singleton h]

/-- The texts before and behind a dot are cleaned apart. -/
theorem dottedText_append_dot (a b : List Char) :
    dottedText (a ++ '.' :: b) = dottedText a ++ '.' :: dottedText b := by
  have ha : (a.splitOn '.').map trim ≠ [] := by simp [List.splitOn_ne_nil]
  have hb : (b.splitOn '.').map trim ≠ [] := by simp [List.splitOn_ne_nil]
  have hjoin : ∀ {l : List (List Char)}, l ≠ [] →
      ['.'].intercalate (l ++ (b.splitOn '.').map trim) = ['.'].intercalate l ++ '.' :: dottedText b := by
    intro l hl
    induction l with
    | nil => exact absurd rfl hl
    | cons piece l ih =>
        by_cases hnil : l = []
        · rw [hnil, List.singleton_append, List.intercalate_cons_of_ne_nil hb, List.intercalate_singleton,
            dottedText, List.append_assoc, List.singleton_append]
        · rw [List.cons_append, List.intercalate_cons_of_ne_nil (by simp [hnil]), ih hnil,
            List.intercalate_cons_of_ne_nil hnil, List.append_assoc _ _ ('.' :: _)]
  rw [dottedText, List.splitOn_append_cons_self, List.map_append, hjoin ha]
  rfl

/-- What holds of texts without dots, and of texts with a dot if it holds of the parts, holds of all
texts. -/
theorem dotted_induction {P : List Char → Prop} (plain : ∀ text, '.' ∉ text → P text)
    (dot : ∀ a b, P a → P b → P (a ++ '.' :: b)) (text : List Char) : P text := by
  induction hn : text.length using Nat.strongRecOn generalizing text with
  | ind n ih =>
      by_cases h : '.' ∈ text
      · obtain ⟨a, b, rfl⟩ := List.append_of_mem h
        rw [List.length_append, List.length_cons] at hn
        exact dot a b (ih a.length (by omega) a rfl) (ih b.length (by omega) b rfl)
      · exact plain text h

section

variable {blanks : List Char} (hblanks : ∀ c ∈ blanks, isBlank c = true)
include hblanks

theorem not_dot_mem_blanks : '.' ∉ blanks := by
  intro hdot
  cases hblanks '.' hdot

/-- White space at the beginning makes no difference. -/
theorem dottedText_blank_append (text : List Char) : dottedText (blanks ++ text) = dottedText text := by
  induction text using dotted_induction with
  | plain text h =>
      have hdot : '.' ∉ blanks ++ text := by simp [h, not_dot_mem_blanks hblanks]
      rw [dottedText_of_not_mem hdot, dottedText_of_not_mem h, trim_blank_append hblanks]
  | dot a b ha _ => rw [← List.append_assoc, dottedText_append_dot, dottedText_append_dot, ha]

/-- White space at the end makes no difference. -/
theorem dottedText_append_blank (text : List Char) : dottedText (text ++ blanks) = dottedText text := by
  induction text using dotted_induction with
  | plain text h =>
      have hdot : '.' ∉ text ++ blanks := by simp [h, not_dot_mem_blanks hblanks]
      rw [dottedText_of_not_mem hdot, dottedText_of_not_mem h, trim_append_blank hblanks]
  | dot a b _ hb =>
      rw [List.append_assoc, List.cons_append, dottedText_append_dot, dottedText_append_dot, hb]

end

/-- Characters other than white space and dots stay. -/
theorem mem_dottedText {text : List Char} {c : Char} (hc : c ∈ text) (hdot : c ≠ '.')
    (hblank : isBlank c = false) : c ∈ dottedText text := by
  induction text using dotted_induction with
  | plain text h =>
      rw [dottedText_of_not_mem h]
      exact mem_trim hc hblank
  | dot a b ha hb =>
      rw [dottedText_append_dot]
      simp only [List.mem_append, List.mem_cons, hdot, false_or] at hc ⊢
      exact hc.imp ha hb

end Python

end ImportAtlas
