/-
# NameDeclension.Proofs.Ends — the end of a text joined from two parts

Places are counted from the end of a text, so the places of a joined text are first those of its
second part. A cut that the second part is long enough for leaves the first part alone. These are
the frame facts behind every statement about what a rule may look at and what it may cut.
-/
import NameDeclension.Text

namespace NameDeclension.Text

/-- The **last `n` characters** of a text, all of it when it has no more. -/
def takeEnd (t : Text) (n : Nat) : Text := t.drop (t.length - n)

/-- A cut divides a text in two. -/
theorem dropEnd_append_takeEnd (t : Text) (n : Nat) : t.dropEnd n ++ t.takeEnd n = t :=
  List.take_append_drop _ t

theorem fromEnd?_append_of_lt {a b : Text} {i : Nat} (h : i < b.length) :
    (a ++ b).fromEnd? i = b.fromEnd? i := by
  have hi : i < b.reverse.length := by rwa [List.length_reverse]
  rw [fromEnd?, List.reverse_append, List.getElem?_append_left hi, fromEnd?]

theorem exists_fromEnd?_of_lt {t : Text} {i : Nat} (h : i < t.length) :
    ∃ c ∈ t, t.fromEnd? i = some c := by
  have hi : i < t.reverse.length := by rwa [List.length_reverse]
  exact ⟨_, List.mem_reverse.mp (List.getElem_mem hi), List.getElem?_eq_getElem hi⟩

/-- What an ending has at a place, the text has there. -/
theorem fromEnd?_of_suffix {tail t : Text} {i : Nat} {c : Char} (h : tail <:+ t)
    (hc : tail.fromEnd? i = some c) : t.fromEnd? i = some c := by
  obtain ⟨front, rfl⟩ := h
  have inside : i < tail.length := by
    have := (List.getElem?_eq_some_iff.mp hc).1
    rwa [List.length_reverse] at this
  rw [fromEnd?_append_of_lt inside, hc]

/-- Behind the places of the second part stand those of the first. -/
theorem fromEnd?_append_length (a b : Text) : (a ++ b).fromEnd? b.length = a.fromEnd? 0 := by
  have hb : b.reverse.length ≤ b.length := Nat.le_of_eq List.length_reverse
  rw [fromEnd?, List.reverse_append, List.getElem?_append_right hb, List.length_reverse,
    Nat.sub_self, fromEnd?]

theorem fromEnd?_concat (a : Text) (c : Char) : (a ++ [c]).fromEnd? 0 = some c := by
  simp [fromEnd?]

/-- A cut inside the second part leaves the first part whole. -/
theorem dropEnd_append {a b : Text} {n : Nat} (h : n ≤ b.length) :
    (a ++ b).dropEnd n = a ++ b.dropEnd n := by
  have keep : (a ++ b).length - n = a.length + (b.length - n) := by
    rw [List.length_append]
    omega
  rw [dropEnd, keep, List.take_length_add_append, dropEnd]

theorem takeEnd_append {a b : Text} {n : Nat} (h : n ≤ b.length) :
    (a ++ b).takeEnd n = b.takeEnd n := by
  have keep : (a ++ b).length - n = a.length + (b.length - n) := by
    rw [List.length_append]
    omega
  rw [takeEnd, keep, List.drop_length_add_append, takeEnd]

theorem fromEnd?_map (f : Char → Char) (t : Text) (i : Nat) :
    fromEnd? (t.map f) i = (t.fromEnd? i).map f := by
  rw [fromEnd?, ← List.map_reverse, List.getElem?_map, fromEnd?]

theorem dropEnd_map (f : Char → Char) (t : Text) (n : Nat) :
    dropEnd (t.map f) n = (t.dropEnd n).map f := by
  rw [dropEnd, dropEnd, List.length_map, List.map_take]

theorem takeEnd_map (f : Char → Char) (t : Text) (n : Nat) :
    takeEnd (t.map f) n = (t.takeEnd n).map f := by
  rw [takeEnd, takeEnd, List.length_map, List.map_drop]

end NameDeclension.Text
