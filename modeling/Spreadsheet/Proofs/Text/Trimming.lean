import Spreadsheet.Text.Blank

/-! A text is what is left when it is trimmed, between two runs of blanks. What follows a character
that is no blank is trimmed on its own, so a reader may trim before or after it takes a text
apart. -/

namespace Spreadsheet.Text

variable {xs ys cs : List Char}

/-- The text neither starts nor ends with a blank. -/
structure IsTrimmed (cs : List Char) : Prop where
  first : ∀ c ∈ cs.head?, isBlank c = false
  last : ∀ c ∈ cs.getLast?, isBlank c = false

theorem dropBlanks_append (h : ∀ c ∈ xs, isBlank c = true) :
    dropBlanks (xs ++ ys) = dropBlanks ys := List.dropWhile_append_of_pos h

theorem dropBlanks_append_of_first (hne : xs ≠ []) (h : ∀ c ∈ xs.head?, isBlank c = false) :
    dropBlanks (xs ++ ys) = xs ++ ys := by
  obtain ⟨c, rest, rfl⟩ := List.exists_cons_of_ne_nil hne
  exact dropBlanks_eq_self h

theorem dropFinalBlanks_append_blanks (h : ∀ c ∈ ys, isBlank c = true) :
    dropFinalBlanks (xs ++ ys) = dropFinalBlanks xs := by
  rw [dropFinalBlanks, List.reverse_append,
    List.dropWhile_append_of_pos fun c hc => h c (List.mem_reverse.mp hc), ← dropFinalBlanks]

/-- Blanks are dropped from what follows a character that is none. -/
theorem dropFinalBlanks_append (h : ∀ c ∈ xs.getLast?, isBlank c = false) :
    dropFinalBlanks (xs ++ ys) = xs ++ dropFinalBlanks ys := by
  have hxs : xs.reverse.dropWhile isBlank = xs.reverse :=
    dropBlanks_eq_self (by rwa [List.head?_reverse])
  rw [dropFinalBlanks, dropFinalBlanks, List.reverse_append, List.dropWhile_append]
  split
  · next hempty =>
    rw [List.isEmpty_iff] at hempty
    rw [hxs, hempty, List.reverse_nil, List.append_nil, List.reverse_reverse]
  · rw [List.reverse_append, List.reverse_reverse]

/-- Nothing in front of a character that is no blank is dropped. -/
theorem dropFinalBlanks_append_of_ne_nil (h : dropFinalBlanks ys ≠ []) :
    dropFinalBlanks (xs ++ ys) = xs ++ dropFinalBlanks ys := by
  rw [dropFinalBlanks, dropFinalBlanks, List.reverse_append, List.dropWhile_append]
  split
  · next hempty =>
    rw [List.isEmpty_iff] at hempty
    exact absurd (by rw [dropFinalBlanks, hempty]; rfl) h
  · rw [List.reverse_append, List.reverse_reverse]

theorem dropFinalBlanks_eq_self (h : ∀ c ∈ cs.getLast?, isBlank c = false) :
    dropFinalBlanks cs = cs := by
  have happend : dropFinalBlanks (cs ++ []) = cs ++ dropFinalBlanks [] := dropFinalBlanks_append h
  rwa [List.append_nil, show dropFinalBlanks [] = [] from rfl, List.append_nil] at happend

/-- The blanks in front of what is left. -/
theorem exists_dropBlanks (cs : List Char) :
    ∃ before, (∀ c ∈ before, isBlank c = true) ∧ cs = before ++ dropBlanks cs :=
  ⟨cs.takeWhile isBlank, fun c hc => List.all_eq_true.mp List.all_takeWhile c hc,
    List.takeWhile_append_dropWhile.symm⟩

/-- The blanks behind what is left. -/
theorem exists_dropFinalBlanks (cs : List Char) :
    ∃ after, (∀ c ∈ after, isBlank c = true) ∧ cs = dropFinalBlanks cs ++ after := by
  obtain ⟨before, hblank, hsplit⟩ := exists_dropBlanks cs.reverse
  refine ⟨before.reverse, fun c hc => hblank c (List.mem_reverse.mp hc), ?_⟩
  have hreverse := congrArg List.reverse hsplit
  rwa [List.reverse_reverse, List.reverse_append] at hreverse

theorem head?_dropBlanks (cs : List Char) : ∀ c ∈ (dropBlanks cs).head?, isBlank c = false := by
  intro c hc
  have := List.head?_dropWhile_not isBlank cs
  rw [← dropBlanks, hc] at this
  exact this

theorem dropFinalBlanks_cons {c : Char} (h : isBlank c = false) (cs : List Char) :
    dropFinalBlanks (c :: cs) = c :: dropFinalBlanks cs := by
  have hlast : ∀ d ∈ [c].getLast?, isBlank d = false := by
    rintro _ ⟨⟩
    exact h
  exact dropFinalBlanks_append hlast

theorem head?_of_dropFinalBlanks {c : Char} (h : (dropFinalBlanks cs).head? = some c) :
    cs.head? = some c := by
  obtain ⟨after, -, hsplit⟩ := exists_dropFinalBlanks cs
  rw [hsplit, List.head?_append, h, Option.some_or]

theorem getLast?_dropFinalBlanks (cs : List Char) :
    ∀ c ∈ (dropFinalBlanks cs).getLast?, isBlank c = false := by
  rw [dropFinalBlanks, List.getLast?_reverse]
  exact head?_dropBlanks cs.reverse

/-- A text is its blanks at the start, what is left of it, and its blanks at the end. -/
theorem exists_trim (s : String) : ∃ before after, (∀ c ∈ before, isBlank c = true) ∧
    (∀ c ∈ after, isBlank c = true) ∧ IsTrimmed (trim s).toList ∧
    s.toList = before ++ (trim s).toList ++ after := by
  obtain ⟨before, hbefore, hfront⟩ := exists_dropBlanks s.toList
  obtain ⟨after, hafter, hback⟩ := exists_dropFinalBlanks (dropBlanks s.toList)
  have htext : (trim s).toList = dropFinalBlanks (dropBlanks s.toList) := by
    rw [trim, String.toList_ofList]
  rw [htext]
  refine ⟨before, after, hbefore, hafter, ⟨?_, getLast?_dropFinalBlanks _⟩, ?_⟩
  · intro c hc
    refine head?_dropBlanks s.toList c ?_
    rw [hback, List.head?_append, Option.mem_def.mp hc, Option.some_or]
    rfl
  · rw [List.append_assoc, ← hback, ← hfront]

/-- Blanks around a text that has none at its ends are all that trimming takes away. -/
theorem trim_between {before after : List Char} (hbefore : ∀ c ∈ before, isBlank c = true)
    (hafter : ∀ c ∈ after, isBlank c = true) (h : IsTrimmed cs) :
    trim (String.ofList (before ++ cs ++ after)) = String.ofList cs := by
  rw [trim, String.toList_ofList, List.append_assoc, dropBlanks_append hbefore]
  obtain rfl | hne := Decidable.em (cs = [])
  · have hnil : dropBlanks after = [] := by
      rw [← List.append_nil after, dropBlanks_append hafter]
      rfl
    rw [List.nil_append, hnil]
    rfl
  · rw [dropBlanks_append_of_first hne h.first, dropFinalBlanks_append_blanks hafter,
      dropFinalBlanks_eq_self h.last]

/-- A text that has lost blanks at its end is trimmed to the same. -/
theorem trim_dropFinalBlanks (cs : List Char) :
    trim (String.ofList (dropFinalBlanks cs)) = trim (String.ofList cs) := by
  obtain ⟨before, after, hbefore, hafter, htrimmed, htext⟩ :=
    exists_trim (String.ofList (dropFinalBlanks cs))
  obtain ⟨rest, hrest, hcs⟩ := exists_dropFinalBlanks cs
  rw [String.toList_ofList] at htext
  have hblanks : ∀ c ∈ after ++ rest, isBlank c = true := fun c hc =>
    (List.mem_append.mp hc).elim (hafter c) (hrest c)
  have hsplit := trim_between hbefore hblanks htrimmed
  rw [← List.append_assoc, ← htext, ← hcs, String.ofList_toList] at hsplit
  exact hsplit.symm

/-- Only the blanks at the end go when the text starts with a character that is none. -/
theorem trim_append (hne : xs ≠ []) (hfirst : ∀ c ∈ xs.head?, isBlank c = false)
    (h : dropFinalBlanks (xs ++ ys) = xs ++ dropFinalBlanks ys) :
    trim (String.ofList (xs ++ ys)) = String.ofList (xs ++ dropFinalBlanks ys) := by
  rw [trim, String.toList_ofList, dropBlanks_append_of_first hne hfirst, h]

theorem dropFinalBlanks_ne_nil {s : String} (h : trim s ≠ "") : dropFinalBlanks s.toList ≠ [] := by
  intro hnil
  have htrim := trim_dropFinalBlanks s.toList
  rw [hnil, String.ofList_toList] at htrim
  exact h htrim.symm

end Spreadsheet.Text
