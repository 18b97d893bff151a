import BandedReport.Proofs.Formula.Calls

/-!
# Parts of a text

The functions that take the first characters of a text, the last ones, or those from a position on
bring their counts into the length of the text, each in its own way. They meet at the same
character: a text that is cut at any position, inside of it or beyond either end, is the whole text
when the two parts are joined again.

* `left_eq`, `mid_eq`, `right_eq`, `length_eq` say what the functions take of the characters;
* `Expr.IsInteger` says that an expression is an integer in the range of arguments, and sums,
  differences and lengths of such expressions are again;
* `substrings_rejoin` puts everything together.
-/

namespace BandedReport.Formula

/-! ## §1 The functions -/

namespace Text

theorem take_clampCount (chars : List Char) (n : ℤ) :
    chars.take (clampCount n chars.length) = chars.take n.toNat := by
  rw [clampCount, ← List.take_eq_take_min]

theorem drop_clampCount (chars : List Char) (n : ℤ) :
    chars.drop (clampCount n chars.length) = chars.drop n.toNat := by
  rcases Nat.le_total n.toNat chars.length with h | h
  · rw [clampCount, Nat.min_eq_left h]
  · rw [clampCount, Nat.min_eq_right h, List.drop_length, List.drop_eq_nil_of_le h]

variable {v a b : Scalar} {n m : ℤ}

theorem left_eq (ha : integerArgument "LEFT" [v, a] 1 = .ok n) :
    left [v, a] = .ok (textOf (v.displayChars.take n.toNat)) := by
  have hchars : charsArgument [v, a] 0 = v.displayChars := rfl
  simp only [left, ha, hchars, take_clampCount]
  rfl

theorem mid_eq (ha : integerArgument "MID" [v, a, b] 1 = .ok n)
    (hb : integerArgument "MID" [v, a, b] 2 = .ok m) :
    mid [v, a, b] = .ok (textOf ((v.displayChars.drop (n - 1).toNat).take m.toNat)) := by
  have hchars : charsArgument [v, a, b] 0 = v.displayChars := rfl
  simp only [mid, ha, hb, hchars, drop_clampCount, take_clampCount]
  rfl

/-- The last characters are those behind all others, if there are others. -/
theorem right_eq (ha : integerArgument "RIGHT" [v, a] 1 = .ok n) :
    right [v, a] = .ok (textOf (v.displayChars.drop (v.displayChars.length - n).toNat)) := by
  have hchars : charsArgument [v, a] 0 = v.displayChars := rfl
  have hothers : v.displayChars.length - clampCount n v.displayChars.length =
      clampCount (v.displayChars.length - n) v.displayChars.length := by
    unfold clampCount
    omega
  simp only [right, ha, hchars]
  show Except.ok (textOf (v.displayChars.drop
    (v.displayChars.length - clampCount n v.displayChars.length))) = _
  rw [hothers, drop_clampCount]

theorem length_eq : length [v] = .ok (.ofNat v.displayChars.length) := rfl

end Text

/-! ## §2 Integers in formulas -/

/-- The value of the expression is this integer, and it is in the range of integer arguments. -/
def Expr.IsInteger (ctx : Context) (e : Expr) (n : ℤ) : Prop :=
  ∃ x, e.evaluate .builtin ctx = .ok (.number x) ∧ Worth x n ∧ n.natAbs ≤ maxInteger

variable {ctx : Context} {e e' : Expr} {v : Scalar} {n m : ℤ}

theorem abs_le_of_inRange (h : n.natAbs ≤ maxInteger) : |n| ≤ 2 ^ 53 := by
  rw [Int.abs_eq_natAbs]
  exact_mod_cast h

/-- What has a worth is finite, so it stands as the value of an operation. -/
theorem finiteOutcome_of_worth {x : Float} {q : ℚ} (h : Worth x q) :
    finiteOutcome (.number x) = .ok (.number x) := by
  rw [finiteOutcome, h.isFinite]
  rfl

namespace Expr

theorem isInteger_number {k : ℕ} (hk : k ≤ maxInteger) :
    (number (Float.ofNat k)).IsInteger ctx k :=
  ⟨Float.ofNat k, by rw [number, evaluate], worth_ofNat hk, hk⟩

theorem IsInteger.negate (h : e.IsInteger ctx n) : (negate e).IsInteger ctx (-n) := by
  obtain ⟨x, hx, hworth, hrange⟩ := h
  refine ⟨-x, ?_, ?_, by rwa [Int.natAbs_neg]⟩
  · rw [evaluate, hx]
    rfl
  · rw [Int.cast_neg]
    exact hworth.neg

theorem IsInteger.add (h : e.IsInteger ctx n) (h' : e'.IsInteger ctx m)
    (hrange : (n + m).natAbs ≤ maxInteger) : (binary .add e e').IsInteger ctx (n + m) := by
  obtain ⟨x, hx, hworth, -⟩ := h
  obtain ⟨y, hy, hworth', -⟩ := h'
  have hsum := hworth.addInteger hworth' (abs_le_of_inRange hrange)
  refine ⟨x + y, ?_, hsum, hrange⟩
  rw [evaluate, hx, hy]
  exact finiteOutcome_of_worth hsum

theorem IsInteger.subtract (h : e.IsInteger ctx n) (h' : e'.IsInteger ctx m)
    (hrange : (n - m).natAbs ≤ maxInteger) : (binary .subtract e e').IsInteger ctx (n - m) := by
  obtain ⟨x, hx, hworth, -⟩ := h
  obtain ⟨y, hy, hworth', -⟩ := h'
  have hdifference := hworth.subInteger hworth' (abs_le_of_inRange hrange)
  refine ⟨x - y, ?_, hdifference, hrange⟩
  rw [evaluate, hx, hy]
  exact finiteOutcome_of_worth hdifference

/-! ## §3 Calls -/

theorem evaluate_left (he : e.evaluate .builtin ctx = .ok v) (hn : e'.IsInteger ctx n) :
    (call "LEFT" [e, e']).evaluate .builtin ctx =
      .ok (Text.textOf (v.displayChars.take n.toNat)) := by
  obtain ⟨x, hx, hworth, hrange⟩ := hn
  rw [evaluate_eager rfl rfl rfl (.cons he (.cons hx .nil)),
    Text.left_eq (integerArgument_eq rfl hworth hrange)]
  rfl

theorem evaluate_mid {e'' : Expr} (he : e.evaluate .builtin ctx = .ok v)
    (hn : e'.IsInteger ctx n) (hm : e''.IsInteger ctx m) :
    (call "MID" [e, e', e'']).evaluate .builtin ctx =
      .ok (Text.textOf ((v.displayChars.drop (n - 1).toNat).take m.toNat)) := by
  obtain ⟨x, hx, hworth, hrange⟩ := hn
  obtain ⟨y, hy, hworth', hrange'⟩ := hm
  rw [evaluate_eager rfl rfl rfl (.cons he (.cons hx (.cons hy .nil))),
    Text.mid_eq (integerArgument_eq rfl hworth hrange) (integerArgument_eq rfl hworth' hrange')]
  rfl

theorem evaluate_right (he : e.evaluate .builtin ctx = .ok v) (hn : e'.IsInteger ctx n) :
    (call "RIGHT" [e, e']).evaluate .builtin ctx =
      .ok (Text.textOf (v.displayChars.drop (v.displayChars.length - n).toNat)) := by
  obtain ⟨x, hx, hworth, hrange⟩ := hn
  rw [evaluate_eager rfl rfl rfl (.cons he (.cons hx .nil)),
    Text.right_eq (integerArgument_eq rfl hworth hrange)]
  rfl

theorem isInteger_length (he : e.evaluate .builtin ctx = .ok v)
    (hrange : v.displayChars.length ≤ maxInteger) :
    (call "LEN" [e]).IsInteger ctx v.displayChars.length := by
  have hworth := worth_ofNat hrange
  refine ⟨Float.ofNat v.displayChars.length, ?_, hworth, hrange⟩
  rw [evaluate_eager rfl rfl rfl (.cons he .nil)]
  exact finiteOutcome_of_worth hworth

/-- The sum of two texts joins them. -/
theorem evaluate_join {l l' : List Char} (h : e.evaluate .builtin ctx = .ok (Text.textOf l))
    (h' : e'.evaluate .builtin ctx = .ok (Text.textOf l')) :
    (binary .add e e').evaluate .builtin ctx = .ok (Text.textOf (l ++ l')) := by
  rw [evaluate, h, h']
  show Except.ok (Scalar.text (String.ofList ((String.ofList l).toList ++
    (String.ofList l').toList))) = _
  rw [String.toList_ofList, String.toList_ofList]
  rfl

end Expr

/-! ## §4 Cutting and joining -/

/-- **A text that is cut is joined again.** Let an expression have a value, which is shown as a
text, and let another be an integer: a position in the text, in front of it or behind its end. The
first characters up to the position, and then those that the middle gives from the next position
on, or as many of the last ones as are left over, are the whole text. There are as many first
characters as the position says, brought into the range from zero to the length. The arguments can
be written as sums and differences of the position and the length. -/
theorem substrings_rejoin (ctx : Context) (e position : Expr) (v : Scalar) (n : ℤ)
    (he : e.evaluate .builtin ctx = .ok v) (hposition : position.IsInteger ctx n) :
    let length : ℕ := v.display.length
    let first : Expr := .call "LEFT" [e, position]
    (∀ next count : Expr, next.IsInteger ctx (n + 1) → count.IsInteger ctx length →
      (Expr.binary .add first (.call "MID" [e, next, count])).evaluate .builtin ctx =
        .ok (.text v.display)) ∧
    (∀ others : Expr, others.IsInteger ctx (length - n) →
      (Expr.binary .add first (.call "RIGHT" [e, others])).evaluate .builtin ctx =
        .ok (.text v.display)) ∧
    (Expr.call "LEN" [first]).IsInteger ctx (max 0 (min n length)) ∧
    ((n + 1).natAbs ≤ maxInteger →
      (Expr.binary .add position (.number 1)).IsInteger ctx (n + 1)) ∧
    (length ≤ maxInteger →
      (Expr.call "LEN" [e]).IsInteger ctx length ∧
      ((length - n).natAbs ≤ maxInteger →
        (Expr.binary .subtract (.call "LEN" [e]) position).IsInteger ctx (length - n))) := by
  intro length first
  -- The value counts by what it shows, character by character.
  have htext : Scalar.text v.display = Text.textOf v.displayChars := by
    rw [Text.textOf, Scalar.ofList_displayChars]
  have hlength : length = v.displayChars.length := by
    show v.display.length = _
    rw [← Scalar.ofList_displayChars, String.length_ofList]
  -- The first part has as many characters as the position says, none if it is negative.
  have hfirst : first.evaluate .builtin ctx = .ok (Text.textOf (v.displayChars.take n.toNat)) :=
    Expr.evaluate_left he hposition
  clear_value length first
  subst hlength
  rw [htext]
  refine ⟨fun next count hnext hcount => ?_, fun others hothers => ?_, ?_,
    fun hrange => hposition.add (Expr.isInteger_number (by decide)) hrange,
    fun hlong => ⟨Expr.isInteger_length he hlong, fun hrange =>
      (Expr.isInteger_length he hlong).subtract hposition hrange⟩⟩
  · -- The middle part is asked for more than is left, and takes all that is left.
    have hrest := Expr.evaluate_mid he hnext hcount
    rw [Int.add_sub_cancel, Int.toNat_natCast,
      List.take_of_length_le (by rw [List.length_drop]; omega)] at hrest
    rw [Expr.evaluate_join hfirst hrest, List.take_append_drop]
  · -- The last part is asked for what the first one has left over.
    have hrest := Expr.evaluate_right he hothers
    rw [sub_sub_cancel] at hrest
    rw [Expr.evaluate_join hfirst hrest, List.take_append_drop]
  · -- Taking clamps the position to what there is.
    have hcount : ((v.displayChars.take n.toNat).length : ℤ) =
        max 0 (min n v.displayChars.length) := by
      rw [List.length_take]
      omega
    -- The length is no more than the position, which is in range.
    obtain ⟨-, -, -, hrange⟩ := hposition
    have hshown : (Text.textOf (v.displayChars.take n.toNat)).displayChars =
        v.displayChars.take n.toNat := String.toList_ofList
    rw [← hcount, ← hshown]
    refine Expr.isInteger_length hfirst ?_
    rw [hshown, List.length_take]
    omega

/-- A report with a title. -/
private def titled : Context :=
  .ofMaster (.ofList [("title", .text "发票编号")]) ⟨⟨2011, 10, 9, by decide, by decide⟩, .midnight⟩

/-- A position in front of the title. -/
theorem substrings_rejoin_before :
    (Expr.reference "title").evaluate .builtin titled = .ok (.text "发票编号") ∧
    (Expr.negate (.number 3)).IsInteger titled (-3) ∧
    (Expr.binary .add (.call "LEFT" [.reference "title", .negate (.number 3)])
        (.call "MID" [.reference "title", .binary .add (.negate (.number 3)) (.number 1),
          .call "LEN" [.reference "title"]])).evaluate .builtin titled =
      .ok (.text "发票编号") ∧
    (Expr.binary .add (.call "LEFT" [.reference "title", .negate (.number 3)])
        (.call "RIGHT" [.reference "title",
          .binary .subtract (.call "LEN" [.reference "title"])
            (.negate (.number 3))])).evaluate .builtin titled =
      .ok (.text "发票编号") := by
  -- The field is there, and the position is before the first character.
  have htitle : (Expr.reference "title").evaluate .builtin titled = .ok (.text "发票编号") := by
    rw [Expr.evaluate]
    rfl
  have hposition : (Expr.negate (.number 3)).IsInteger titled (-3) :=
    (Expr.isInteger_number (k := 3) (by decide)).negate
  obtain ⟨hmiddle, hlast, -, hnext, hlength⟩ :=
    substrings_rejoin titled (.reference "title") _ _ (-3) htitle hposition
  obtain ⟨hcount, hothers⟩ := hlength (by decide)
  exact ⟨htitle, hposition, hmiddle _ _ (hnext (by decide)) hcount, hlast _ (hothers (by decide))⟩

end BandedReport.Formula
