/-! Rows of bytes in their order: byte by byte, and a row before all that extend it.
A record sorts by its parts because two parts that differ settle the order before
anything behind them is looked at. -/
namespace OrderPack.ByteOrder

/-- The two rows differ before either of them ends, and the first is smaller there. -/
inductive Precedes : List UInt8 → List UInt8 → Prop where
  | here (smaller : a < b) : Precedes (a :: s) (b :: t)
  | there (later : Precedes s t) : Precedes (a :: s) (a :: t)

namespace Precedes

/-- Nothing behind the difference takes part in the order. -/
theorem append (before : Precedes x y) (s t : List UInt8) : Precedes (x ++ s) (y ++ t) := by
  induction before with
  | here smaller => exact .here smaller
  | there _ ih => exact .there ih

theorem compare_eq_lt (before : Precedes x y) : compare x y = .lt := by
  induction before with
  | here smaller =>
    rw [List.compare_cons_cons, Std.compare_eq_lt.mpr smaller, Ordering.lt_then]
  | there _ ih =>
    rw [List.compare_cons_cons, Std.ReflOrd.compare_self, Ordering.eq_then, ih]

theorem compare_eq_gt (before : Precedes x y) : compare y x = .gt :=
  Std.OrientedCmp.gt_iff_lt.mpr before.compare_eq_lt

/-- Neither row begins the other. -/
theorem neither_begins (before : Precedes x y) : ¬x <+: y ∧ ¬y <+: x := by
  induction before with
  | here smaller =>
    have apart := UInt8.ne_of_lt smaller
    exact ⟨fun begins => apart (List.cons_prefix_cons.mp begins).1,
      fun begins => apart (List.cons_prefix_cons.mp begins).1.symm⟩
  | there _ ih =>
    exact ⟨fun begins => ih.1 (List.cons_prefix_cons.mp begins).2,
      fun begins => ih.2 (List.cons_prefix_cons.mp begins).2⟩

end Precedes

/-- Of two rows that do not differ before one of them ends, one begins the other. -/
theorem precedes_or_begins (x y : List UInt8) :
    Precedes x y ∨ Precedes y x ∨ x <+: y ∨ y <+: x := by
  induction x generalizing y with
  | nil => exact .inr (.inr (.inl List.nil_prefix))
  | cons a x ih =>
    cases y with
    | nil => exact .inr (.inr (.inr List.nil_prefix))
    | cons b y =>
      by_cases same : a = b
      · subst same
        simp only [List.cons_prefix_cons, true_and]
        exact (ih y).imp .there (Or.imp_left .there)
      · rcases UInt8.lt_or_lt_of_ne same with less | greater
        · exact .inl (.here less)
        · exact .inr (.inl (.here greater))

/-- A row of zeros is the least of its length. -/
theorem compare_zeros_ne_lt (x : List UInt8) :
    compare x (List.replicate x.length 0) ≠ .lt := by
  induction x with
  | nil => exact nofun
  | cons a x ih =>
    rw [List.length_cons, List.replicate_succ, List.compare_cons_cons]
    by_cases zero : a = 0
    · rw [zero, Std.ReflOrd.compare_self, Ordering.eq_then]
      exact ih
    · have above : compare a 0 = .gt := Std.compare_eq_gt.mpr (UInt8.pos_iff_ne_zero.mpr zero)
      rw [above]
      exact nofun

/-- It is smaller than every other row of its length. -/
theorem compare_zeros_eq_eq_iff (x : List UInt8) :
    compare x (List.replicate x.length 0) = .eq ↔ ∀ byte ∈ x, byte = 0 := by
  rw [Std.LawfulEqCmp.compare_eq_iff_eq, List.eq_replicate_iff]
  exact and_iff_right rfl

/-- The comparison is that of the strict order on rows. -/
theorem compare_eq_lt_iff (x y : List UInt8) : compare x y = .lt ↔ x < y := by
  induction x generalizing y with
  | nil => cases y <;> simp
  | cons a x ih =>
    cases y with
    | nil => simp
    | cons b y =>
      rw [List.compare_cons_cons, Ordering.then_eq_lt, Std.compare_eq_lt,
        Std.LawfulEqCmp.compare_eq_iff_eq, ih, List.cons_lt_cons_iff]

/-- Rows of one length that differ settle the order of whatever they begin. -/
theorem compare_append_of_length_eq {x y : List UInt8} (same : x.length = y.length)
    (s t : List UInt8) : compare (x ++ s) (y ++ t) = (compare x y).then (compare s t) := by
  induction x generalizing y with
  | nil =>
    obtain rfl : y = [] := List.eq_nil_of_length_eq_zero same.symm
    rfl
  | cons a x ih =>
    cases y with
    | nil => cases same
    | cons b y =>
      rw [List.cons_append, List.cons_append, List.compare_cons_cons, List.compare_cons_cons,
        ih (Nat.succ.inj same), Ordering.then_assoc]

/-- Rows without zeros that end with one are told apart no later than at that zero, and
a row sorts before its extensions as its zero does before their next byte. -/
theorem compare_terminated {x y : List UInt8} (left : ∀ byte ∈ x, byte ≠ 0)
    (right : ∀ byte ∈ y, byte ≠ 0) (s t : List UInt8) :
    compare (x ++ 0 :: s) (y ++ 0 :: t) = (compare x y).then (compare s t) := by
  induction x generalizing y with
  | nil =>
    cases y with
    | nil => rw [List.nil_append, List.nil_append, List.compare_cons_cons,
        Std.ReflOrd.compare_self, Std.ReflOrd.compare_self]
    | cons b y =>
      have positive : (0 : UInt8) < b := UInt8.pos_iff_ne_zero.mpr (right b List.mem_cons_self)
      rw [List.nil_append, List.cons_append, List.compare_cons_cons,
        Std.compare_eq_lt.mpr positive]
      rfl
  | cons a x ih =>
    cases y with
    | nil =>
      have positive : (0 : UInt8) < a := UInt8.pos_iff_ne_zero.mpr (left a List.mem_cons_self)
      rw [List.nil_append, List.cons_append, List.compare_cons_cons,
        Std.compare_eq_gt.mpr positive]
      rfl
    | cons b y =>
      rw [List.cons_append, List.cons_append, List.compare_cons_cons, List.compare_cons_cons,
        ih (fun _ found => left _ (List.mem_cons_of_mem _ found))
          (fun _ found => right _ (List.mem_cons_of_mem _ found)), Ordering.then_assoc]

theorem compare_natCast (m n : Nat) : compare (m : Int) (n : Int) = compare m n := by
  change compareOfLessAndEq (m : Int) (n : Int) = compareOfLessAndEq m n
  simp only [compareOfLessAndEq, Int.ofNat_lt, Int.ofNat_inj]

/-- An encoding by which smaller numbers precede larger ones orders whatever begins
with it by the numbers first, and by what follows where they agree. -/
theorem compare_append_of_precedes (encode : Int → List UInt8) (admitted : Int → Prop)
    (precedes : ∀ {m n}, admitted m → admitted n → m < n → Precedes (encode m) (encode n))
    {m n : Int} (left : admitted m) (right : admitted n) (s t : List UInt8) :
    compare (encode m ++ s) (encode n ++ t) = (compare m n).then (compare s t) := by
  rcases Int.lt_trichotomy m n with less | rfl | greater
  · rw [((precedes left right less).append s t).compare_eq_lt, Std.compare_eq_lt.mpr less]
    rfl
  · rw [compare_append_of_length_eq rfl, Std.ReflOrd.compare_self, Std.ReflOrd.compare_self]
  · rw [((precedes right left greater).append t s).compare_eq_gt, Std.compare_eq_gt.mpr greater]
    rfl

end OrderPack.ByteOrder
