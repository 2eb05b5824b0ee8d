import SeqStore.Text.Display

/-!
The display text of a container: the texts of its elements with a comma and a blank between them, in
the brackets of its kind, whatever pieces it is passed on in.
-/

namespace SeqStore.Display

variable {α : Type} [Display α]

theorem toList_text (x : α) : (text x).toList = (pieces x).flatMap String.toList := by
  rw [text, String.toList_join]

theorem join_separated (parts : List (List String)) :
    String.join (separated parts) = ", ".intercalate (parts.map String.join) := by
  fun_induction separated parts with
  | case1 => simp
  | case2 p => simp
  | case3 p q rest ih =>
    rw [List.map_cons] at ih
    rw [String.join_append, String.join_cons, ih, List.map_cons, List.map_cons,
      String.intercalate_cons_cons, String.append_assoc]

private theorem join_enclosed (left right : String) (xs : List α) :
    String.join (left :: separated (xs.map pieces) ++ [right]) =
      left ++ ", ".intercalate (xs.map text) ++ right := by
  have htexts : (xs.map pieces).map String.join = xs.map text := List.map_map
  rw [String.join_append, String.join_cons, join_separated, htexts, String.join_cons,
    String.join_nil, String.append_empty]

theorem text_list (l : LinkedList α) :
    text l = "[" ++ ", ".intercalate (l.toList.map text) ++ "]" :=
  join_enclosed "[" "]" l.toList

theorem text_tuple (t : Tuple α) :
    text t = "(" ++ ", ".intercalate (t.toList.map text) ++ ")" :=
  join_enclosed "(" ")" t.toList

end SeqStore.Display
