import Mathlib.Data.List.Basic
import Mathlib.Data.List.TakeWhile

/-! Command lines (`cmd_make_strvec`): the nodes of the command tree and the words of a line. -/

namespace SoftBts

/-- `enum node_type` -/
inductive NodeType where
  | auth
  | view
  | authEnable
  | enable
  | config
  | service
  | debug
  | vty
  | gsmnet
  | bts
  | trx
  | ts
  | subscr
  | mgcp
  deriving DecidableEq

/-- The octets of a string. -/
def ascii (s : String) : List UInt8 := s.toList.map fun c => UInt8.ofNat c.toNat

/-- `isspace` in the C locale -/
def isspace (c : UInt8) : Bool := c == 0x20 || (9 ≤ c && c ≤ 13)

/-- The loop of `cmd_make_strvec`, which begins at a word: the word, the spaces behind it, and so on. -/
def commandPieces (cp : List UInt8) : List (List UInt8) :=
  match cp with
  | [] => []
  | c :: cs =>
      let rest := (cs.dropWhile fun d => !isspace d).dropWhile isspace
      (c :: cs.takeWhile fun d => !isspace d) :: commandPieces rest
termination_by cp.length
decreasing_by
  have h1 := (List.dropWhile_suffix isspace (l := cs.dropWhile fun d => !isspace d)).length_le
  have h2 := (List.dropWhile_suffix (fun d => !isspace d) (l := cs)).length_le
  simp only [List.length_cons]
  omega

/-- `cmd_make_strvec`; there is no vector for a blank line and for a comment. -/
def makeStrvec (string : List UInt8) : Option (List (List UInt8)) :=
  match string.dropWhile isspace with
  | [] => none
  | c :: cs => if c = 0x21 ∨ c = 0x23 then none else some (commandPieces (c :: cs))

/-! ### The last word of a line -/

theorem takeWhile_append_stop {α : Type} (p : α → Bool) (a b : List α) (hb : b.head?.any p = false) :
    (a ++ b).takeWhile p = a.takeWhile p := by
  induction a with
  | nil =>
      cases b with
      | nil => rfl
      | cons x b =>
          have hx : p x = false := hb
          simp [hx]
  | cons x a ih =>
      rw [List.cons_append, List.takeWhile_cons, List.takeWhile_cons, ih]

theorem dropWhile_stops {α : Type} (p : α → Bool) (l : List α) : (l.dropWhile p).head?.any p = false := by
  induction l with
  | nil => rfl
  | cons x l ih =>
      cases hx : p x with
      | true => rwa [List.dropWhile_cons_of_pos hx]
      | false =>
          rw [List.dropWhile_cons_of_neg (by simp [hx])]
          exact hx

/-- A character that ends no word. -/
def wordChar (c : UInt8) : Bool := !isspace c

/-- The characters at the end of a text that are in no earlier word. -/
def lastWord (text : List UInt8) : List UInt8 := (text.reverse.takeWhile wordChar).reverse

theorem lastWord_append {a b : List UInt8} (ha : a.getLast?.any wordChar = false) :
    lastWord (a ++ b) = lastWord b := by
  rw [lastWord, List.reverse_append, takeWhile_append_stop _ _ _ (by rwa [List.head?_reverse]),
    lastWord]

theorem lastWord_of_all {t : List UInt8} (h : ∀ c ∈ t, wordChar c = true) : lastWord t = t := by
  rw [lastWord, List.takeWhile_eq_self_iff.mpr fun c hc => h c (List.mem_reverse.mp hc),
    List.reverse_reverse]

theorem spaces_stop {sp : List UInt8} (h : ∀ c ∈ sp, isspace c = true) :
    sp.getLast?.any wordChar = false := by
  cases hlast : sp.getLast? with
  | none => rfl
  | some c => simp [wordChar, h c (List.mem_of_getLast? hlast)]

/-- A line that does not end in a space has none behind its last word. -/
theorem spaces_eq_nil {word sp : List UInt8} (h : ∀ c ∈ sp, isspace c = true)
    (hlast : (word ++ sp).getLast?.any isspace = false) : sp = [] := by
  by_contra hsome
  rw [List.getLast?_append_of_ne_nil _ hsome, List.getLast?_eq_some_getLast hsome] at hlast
  exact Bool.false_ne_true (hlast.symm.trans (h _ (List.getLast_mem hsome)))

/-- Between two words there is a space. -/
theorem spaces_ne_nil {cs ds : List UInt8} {d : UInt8}
    (hrest : (cs.dropWhile wordChar).dropWhile isspace = d :: ds) :
    (cs.dropWhile wordChar).takeWhile isspace ≠ [] := by
  intro hnone
  have hall : cs.dropWhile wordChar = d :: ds := by
    rw [← List.takeWhile_append_dropWhile (p := isspace) (l := cs.dropWhile wordChar), hnone, hrest]
    rfl
  have hstop := dropWhile_stops wordChar cs
  have hstop' := dropWhile_stops isspace (cs.dropWhile wordChar)
  rw [hall] at hstop
  rw [hrest] at hstop'
  simp only [List.head?_cons, Option.any_some, wordChar] at hstop hstop'
  rw [hstop'] at hstop
  cases hstop

/-- The last piece of a line that does not end in a space is its last word. -/
theorem commandPieces_last (cp : List UInt8) (hhead : cp.head?.any isspace = false)
    (hlast : cp.getLast?.any isspace = false) (hne : cp ≠ []) :
    (commandPieces cp).getLast? = some (lastWord cp) := by
  fun_induction commandPieces cp with
  | case1 => exact absurd rfl hne
  | case2 c cs rest ih =>
      have hc : wordChar c = true := by
        have hspace : isspace c = false := hhead
        rw [wordChar, hspace]
        rfl
      let piece := c :: cs.takeWhile wordChar
      let spaces := (cs.dropWhile wordChar).takeWhile isspace
      have hsplit : c :: cs = piece ++ (spaces ++ rest) := by
        simp only [piece, spaces, rest, List.cons_append]
        rw [show (fun d => !isspace d) = wordChar from rfl,
          List.takeWhile_append_dropWhile, List.takeWhile_append_dropWhile]
      have hpiece : ∀ d ∈ piece, wordChar d = true := by
        intro d hd
        rcases List.mem_cons.mp hd with rfl | hd
        · exact hc
        · exact List.mem_takeWhile_imp hd
      have hspaces : ∀ d ∈ spaces, isspace d = true := fun d hd => List.mem_takeWhile_imp hd
      cases hrest : rest with
      | nil =>
          -- no spaces either, or the line would end in one
          have hnone : spaces = [] := by
            rw [hsplit, hrest, List.append_nil] at hlast
            exact spaces_eq_nil hspaces hlast
          rw [hsplit, hrest, hnone, List.append_nil, List.append_nil, lastWord_of_all hpiece,
            commandPieces]
          rfl
      | cons d ds =>
          have hrestne : rest ≠ [] := by
            rw [hrest]
            exact List.cons_ne_nil _ _
          have hnext := ih (dropWhile_stops isspace _)
            (by rwa [hsplit, ← List.append_assoc, List.getLast?_append_of_ne_nil _ hrestne] at hlast)
            hrestne
          have hgap : spaces ≠ [] := spaces_ne_nil hrest
          have hcons : commandPieces rest ≠ [] := by
            rw [hrest, commandPieces]
            exact List.cons_ne_nil _ _
          rw [hrest] at hnext hcons
          rw [List.getLast?_cons_of_ne_nil hcons, hnext, hsplit, hrest, ← List.append_assoc,
            lastWord_append]
          rw [List.getLast?_append_of_ne_nil _ hgap]
          exact spaces_stop hspaces

theorem makeStrvec_last {text : List UInt8} {vline : List (List UInt8)}
    (h : makeStrvec text = some vline) (hlast : text.getLast?.any isspace = false) :
    vline.getLast? = some (lastWord text) := by
  have hsplit : text = text.takeWhile isspace ++ text.dropWhile isspace :=
    List.takeWhile_append_dropWhile.symm
  have hhead := dropWhile_stops isspace text
  rw [makeStrvec] at h
  cases hrest : text.dropWhile isspace with
  | nil =>
      rw [hrest] at h
      cases h
  | cons c cs =>
      rw [hrest] at h hsplit hhead
      have hspaces : ∀ d ∈ text.takeWhile isspace, isspace d = true :=
        fun d hd => List.mem_takeWhile_imp hd
      have hword : lastWord text = lastWord (c :: cs) := by
        conv_lhs => rw [hsplit]
        exact lastWord_append (spaces_stop hspaces)
      rw [hsplit, List.getLast?_append_of_ne_nil _ (List.cons_ne_nil _ _)] at hlast
      dsimp only at h
      split at h
      · cases h
      · obtain rfl := Option.some.inj h
        rw [hword]
        exact commandPieces_last _ hhead hlast (List.cons_ne_nil _ _)

end SoftBts
