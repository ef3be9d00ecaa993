import Mathlib.Data.List.DropRight
import ResourceQuery.Text.Blank

/-!
# What trimming leaves

Trimming takes all characters of a class away from both ends of a text, and nothing else. What is
left begins and ends with other characters, and is the only part of the text that does so and has
none but characters of the class around it.

Headlines:
* **`Unpadded`**: a text that neither begins nor ends with a character of a class.
* **`unpadded_trimWith`**, **`exists_padding`**: what trimming leaves, and what it takes away.
* **`trimWith_eq_iff`**: these two determine the trimmed text.
* **`trimWith_eq_self_iff`**: the texts that trimming leaves as they are.
-/

namespace ResourceQuery.Text

variable {p : Char → Bool} {cs : List Char}

/-- No character of a class stands at an end of a text. -/
def Unpadded (p : Char → Bool) (cs : List Char) : Prop :=
  ∀ c, cs.head? = some c ∨ cs.getLast? = some c → p c = false

theorem head?_dropWhile {c : Char} (h : (cs.dropWhile p).head? = some c) : p c = false := by
  have hstop := List.head?_dropWhile_not p cs
  rwa [h] at hstop

theorem dropWhile_eq_self (h : ∀ c, cs.head? = some c → p c = false) : cs.dropWhile p = cs := by
  cases cs with
  | nil => rfl
  | cons c cs => rw [List.dropWhile_cons, h c rfl, if_neg Bool.false_ne_true]

/-- What is dropped at the end stands behind the rest. -/
theorem exists_dropped (p : Char → Bool) (cs : List Char) :
    ∃ after, cs = (cs.reverse.dropWhile p).reverse ++ after ∧ ∀ c ∈ after, p c = true := by
  refine ⟨(cs.reverse.takeWhile p).reverse, ?_, fun c hc => ?_⟩
  · rw [← List.reverse_append, List.takeWhile_append_dropWhile, List.reverse_reverse]
  · exact List.mem_takeWhile_imp (List.mem_reverse.mp hc)

/-- Trimming takes only characters of the class away. -/
theorem exists_padding (p : Char → Bool) (cs : List Char) :
    ∃ before after, cs = before ++ trimWith p cs ++ after ∧ ∀ c ∈ before ++ after, p c = true := by
  obtain ⟨after, hafter, hall⟩ := exists_dropped p (cs.dropWhile p)
  refine ⟨cs.takeWhile p, after, ?_, fun c hc => ?_⟩
  · rw [trimWith, List.append_assoc, ← hafter, List.takeWhile_append_dropWhile]
  · rcases List.mem_append.mp hc with hc | hc
    · exact List.mem_takeWhile_imp hc
    · exact hall c hc

/-- **What trimming leaves** has no character of the class at its ends. -/
theorem unpadded_trimWith (p : Char → Bool) (cs : List Char) : Unpadded p (trimWith p cs) := by
  rintro c (hfirst | hlast)
  · obtain ⟨after, hafter, -⟩ := exists_dropped p (cs.dropWhile p)
    have hhead : (cs.dropWhile p).head? = some c := by
      rw [trimWith] at hfirst
      rw [hafter, List.head?_append, hfirst]
      rfl
    exact head?_dropWhile hhead
  · rw [trimWith, List.getLast?_reverse] at hlast
    exact head?_dropWhile hlast

/-- **The trimmed text** is the part without characters of the class at its ends, and with no others
around it. -/
theorem trimWith_eq_iff {trimmed : List Char} :
    trimWith p cs = trimmed ↔ Unpadded p trimmed ∧
      ∃ before after, cs = before ++ trimmed ++ after ∧ ∀ c ∈ before ++ after, p c = true := by
  constructor
  · rintro rfl
    exact ⟨unpadded_trimWith p cs, exists_padding p cs⟩
  · rintro ⟨hends, before, after, rfl, hall⟩
    rw [List.forall_mem_append] at hall
    have hfirst : (trimmed ++ after).dropWhile p = if trimmed = [] then [] else trimmed ++ after := by
      cases trimmed with
      | nil => exact List.dropWhile_eq_nil_iff.mpr hall.2
      | cons c rest => exact dropWhile_eq_self fun d hd => hends d (.inl hd)
    have hlast : ((trimmed ++ after).reverse.dropWhile p).reverse = trimmed := by
      rw [List.reverse_append,
        List.dropWhile_append_of_pos fun c hc => hall.2 c (List.mem_reverse.mp hc),
        dropWhile_eq_self fun c hc => hends c (.inr (List.head?_reverse ▸ hc)),
        List.reverse_reverse]
    rw [trimWith, List.append_assoc, List.dropWhile_append_of_pos hall.1, hfirst]
    split
    · next hnil => exact hnil.symm
    · exact hlast

/-- A text is left as it is exactly if no character of the class stands at its ends. -/
theorem trimWith_eq_self_iff : trimWith p cs = cs ↔ Unpadded p cs := by
  constructor
  · intro h
    exact h ▸ unpadded_trimWith p cs
  · intro h
    exact trimWith_eq_iff.mpr ⟨h, [], [], (List.append_nil _).symm, nofun⟩

end ResourceQuery.Text
