import HadrAgent.Lib.Blocks
import HadrAgent.Python.Text

/-!
# Reasoning blocks

`strip_think` of `agent.py`: what a model writes between `<think>` and `</think>` is taken out, once and from left to
right, and the rest is trimmed.

- `stripThink_blocks`: the blocks go, and everything else stays;
- `hasThink_stripThink_iff`: what is left has a block exactly if an opening tag is made up across the place of one.
-/

namespace HadrAgent

/-- `_THINK_RE`: `<think>.*?</think>`, where the dot is any character. -/
def thinkRe : Regex.Pattern Char where
  first a := decide (a = '<')
  rest := Regex.literal "think>".toList ++ .lazyMany (fun _ => true) :: Regex.literal "</think>".toList

/-- `strip_think`. -/
def stripThink (text : Option String) : String := Str.strip (String.ofList (thinkRe.sub [] (text.getD "").toList))

/-! ## The tags -/

def thinkOpen : Regex.Tag Char := ⟨'<', "think>".toList, by decide⟩

def thinkClose : Regex.Tag Char := ⟨'<', "/think>".toList, by decide⟩

theorem thinkRe_eq : thinkRe = Regex.block thinkOpen thinkClose := rfl

theorem toList_stripThink (text : String) :
    (stripThink (some text)).toList =
      Regex.trim Str.isspace ((Regex.block thinkOpen thinkClose).sub [] text.toList) := by
  unfold stripThink Str.strip
  rw [String.toList_ofList, String.toList_ofList, thinkRe_eq]
  rfl

/-! ## Blocks and segments -/

/-- A text of segments with reasoning blocks between them: each block is given by its body and the segment behind it. -/
def thinkText (s : String) (blocks : List (String × String)) : String :=
  s ++ String.join (blocks.map fun p => "<think>" ++ p.1 ++ "</think>" ++ p.2)

/-- Such a text is rendered from its parts. -/
theorem toList_thinkText (s : String) (blocks : List (String × String)) :
    (thinkText s blocks).toList =
      Regex.render thinkOpen thinkClose s.toList (blocks.map fun p => (p.1.toList, p.2.toList)) := by
  induction blocks generalizing s with
  | nil =>
    unfold thinkText
    simp [Regex.render]
  | cons p blocks ih =>
    have hrest := ih p.2
    unfold thinkText at hrest ⊢
    rw [List.map_cons, String.join_cons, List.map_cons, Regex.render, ← hrest]
    simp only [String.toList_append, List.append_assoc]
    rfl

/-- **The reasoning blocks go**, and everything else stays, trimmed. A segment may hold closing tags, and a body opening
ones. -/
theorem stripThink_blocks (s : String) (blocks : List (String × String)) (hs : ¬ "<think>".toList <:+: s.toList)
    (hblocks : ∀ p ∈ blocks, ¬ "</think>".toList <:+: p.1.toList ∧ ¬ "<think>".toList <:+: p.2.toList) :
    stripThink (some (thinkText s blocks)) = Str.strip (s ++ String.join (blocks.map Prod.snd)) := by
  have hparts : ∀ q ∈ blocks.map fun p => (p.1.toList, p.2.toList),
      ¬ thinkClose.text <:+: q.1 ∧ ¬ thinkOpen.text <:+: q.2 := by
    intro q hq
    obtain ⟨p, hp, rfl⟩ := List.mem_map.mp hq
    exact hblocks p hp
  have hscan := Regex.scanned_render (o := thinkOpen) (s := s.toList) hs hparts
  have hsub := Regex.sub_nil_of_scanned hscan
  rw [← toList_thinkText] at hsub
  unfold stripThink
  rw [thinkRe_eq, Option.getD_some, hsub]
  congr 1
  rw [← String.toList_inj, String.toList_ofList, String.toList_append, String.toList_join, List.map_map,
    List.flatMap_map]
  rfl

/-- A stray closing tag in a segment, an opening tag and a new line in a body, and an empty body. -/
theorem stripThink_blocks_stray :
    stripThink (some (thinkText " a</think>" [("x<think>y\n", " b"), ("", " ")])) =
      Str.strip (" a</think>" ++ String.join [" b", " "]) :=
  stripThink_blocks _ _ (by decide) (by decide)

/-! ## What is left -/

/-- An opening tag, and behind it a closing one. -/
def HasThink (text : String) : Prop :=
  ∃ s b r : String, text = s ++ "<think>" ++ b ++ "</think>" ++ r

/-- An opening tag is made up across the place of a block that `strip_think` takes out, and behind it is a closing
tag. -/
def MakesUpTag (text : String) : Prop := Regex.Straddles thinkOpen thinkClose (thinkRe.pieces text.toList)

theorem hasThink_iff (text : String) : HasThink text ↔ Regex.HasBlock thinkOpen thinkClose text.toList := by
  constructor
  · rintro ⟨s, b, r, rfl⟩
    refine ⟨s.toList, b.toList, r.toList, ?_⟩
    simp only [String.toList_append, List.append_assoc]
    rfl
  · rintro ⟨s, b, r, h⟩
    refine ⟨String.ofList s, String.ofList b, String.ofList r, ?_⟩
    rw [← String.toList_inj, h]
    simp only [String.toList_append, String.toList_ofList, List.append_assoc]
    rfl

/-- **What is left** has a block exactly if an opening tag is made up across the place of one; and exactly if there is
something left to strip. -/
theorem hasThink_stripThink_iff (text : String) :
    (HasThink (stripThink (some text)) ↔ MakesUpTag text) ∧
      (stripThink (some (stripThink (some text))) = stripThink (some text) ↔ ¬ HasThink (stripThink (some text))) := by
  have hclose : thinkClose.text = "</think".toList ++ ['>'] := rfl
  rw [hasThink_iff, toList_stripThink]
  constructor
  · rw [Regex.hasBlock_trim_iff (by decide) hclose (by decide), Regex.Pattern.sub_nil]
    exact Regex.hasBlock_flatten_iff text.toList
  · rw [← String.toList_inj, toList_stripThink, toList_stripThink]
    exact Regex.trim_sub_nil_eq_self_iff (Regex.trim_trim _)

/-- Taking out one block makes up another one. -/
theorem stripThink_nested : HasThink (stripThink (some "<thi<think>x</think>nk>y</think>")) := by
  have h : stripThink (some "<thi<think>x</think>nk>y</think>") = "<think>y</think>" := by decide
  rw [h]
  exact ⟨"", "y", "", by decide⟩

end HadrAgent
