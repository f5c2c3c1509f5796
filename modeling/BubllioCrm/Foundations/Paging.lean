import Mathlib.Data.List.Induction
import Mathlib.Data.List.NodupEquivFin
import Mathlib.Data.List.Sort
import Mathlib.Order.WellFounded
import Mathlib.Data.List.Perm.Basic
import Mathlib.Data.List.Flatten

/-!
Owns lists that are sorted by a key and cut into pages: the first items of a
selection beside the first items of all, and pages that are each cut from a
selection of their own.

A key is injective on the items, as it ends in what identifies them.
-/

namespace BubllioCrm.Foundations

section Sorting

variable {Item Key : Type*} [LinearOrder Key] (key : Item → Key)

/-- `sorted(items, key=key)`. -/
def sortOn (items : List Item) : List Item :=
  items.insertionSort fun first second => key first ≤ key second

theorem perm_sortOn (items : List Item) : (sortOn key items).Perm items :=
  List.perm_insertionSort _ items

theorem mem_sortOn {items : List Item} {item : Item} : item ∈ sortOn key items ↔ item ∈ items :=
  (perm_sortOn key items).mem_iff

theorem length_sortOn (items : List Item) : (sortOn key items).length = items.length :=
  (perm_sortOn key items).length_eq

theorem pairwise_sortOn (items : List Item) :
    (sortOn key items).Pairwise fun first second => key first ≤ key second := by
  have total : Std.Total fun first second : Item => key first ≤ key second :=
    ⟨fun first second => le_total (key first) (key second)⟩
  have transitive : IsTrans Item fun first second => key first ≤ key second :=
    ⟨fun _ _ _ => le_trans⟩
  exact List.pairwise_insertionSort _ items

variable {key}

/-- Two items with one key are one item. -/
def KeysDiffer (key : Item → Key) (items : List Item) : Prop :=
  ∀ first ∈ items, ∀ second ∈ items, key first = key second → first = second

/-- The least item is the first. -/
theorem mem_take_of_least {items : List Item} (differ : KeysDiffer key items) {least : Item}
    (member : least ∈ items) (isLeast : ∀ item ∈ items, key least ≤ key item) {count : Nat}
    (positive : 0 < count) : least ∈ (sortOn key items).take count := by
  have isSorted := pairwise_sortOn key items
  have inSorted := (mem_sortOn key).mpr member
  have parts : ∀ item ∈ sortOn key items, item ∈ items := fun _ => (mem_sortOn key).mp
  cases sorted : sortOn key items with
  | nil => simp [sorted] at inSorted
  | cons first rest =>
      rw [sorted] at isSorted inSorted parts
      have isFirst : least = first := by
        rcases List.mem_cons.mp inSorted with isFirst | isLater
        · exact isFirst
        · have below := List.rel_of_pairwise_cons isSorted isLater
          have inItems := parts first List.mem_cons_self
          exact differ least member first inItems (le_antisymm (isLeast first inItems) below)
      rw [isFirst]
      exact List.mem_of_mem_head? (by rw [List.head?_take, if_neg positive.ne']; rfl)

/-- There is one way to sort. -/
theorem eq_sortOn {items sorted : List Item} (differ : KeysDiffer key items)
    (same : sorted.Perm items)
    (isSorted : sorted.Pairwise fun first second => key first ≤ key second) :
    sorted = sortOn key items := by
  refine List.Perm.eq_of_pairwise ?_ isSorted (pairwise_sortOn key items)
    (same.trans (perm_sortOn key items).symm)
  intro first second isFirst isSecond below above
  exact differ first (same.mem_iff.mp isFirst) second ((mem_sortOn key).mp isSecond)
    (le_antisymm below above)

/-- The first items of a selection are the first of all as soon as it contains them. -/
theorem take_filter_eq_iff {keeps : Item → Bool} {sorted : List Item} {count : Nat} :
    (sorted.filter keeps).take count = sorted.take count ↔
      ∀ item ∈ sorted.take count, keeps item = true := by
  induction sorted generalizing count with
  | nil => simp
  | cons item rest inductionHypothesis =>
      cases count with
      | zero => simp
      | succ count =>
          rw [List.take_succ_cons, List.forall_mem_cons, List.filter_cons]
          split
          · rename_i isKept
            rw [List.take_succ_cons, List.cons.injEq, inductionHypothesis]
            simp [isKept]
          · rename_i isDropped
            refine iff_of_false ?_ fun all => isDropped all.1
            intro same
            have isFirst : item ∈ (rest.filter keeps).take (count + 1) :=
              same ▸ List.mem_cons_self
            exact isDropped (List.of_mem_filter (List.mem_of_mem_take isFirst))

/-- An item keeps its place among the first when others are left out. -/
theorem mem_take_filter {keeps : Item → Bool} {sorted : List Item} {count : Nat} {item : Item}
    (isFirst : item ∈ sorted.take count) (isKept : keeps item = true) :
    item ∈ (sorted.filter keeps).take count := by
  induction sorted generalizing count with
  | nil => simp at isFirst
  | cons head rest inductionHypothesis =>
      cases count with
      | zero => simp at isFirst
      | succ count =>
          rw [List.take_succ_cons, List.mem_cons] at isFirst
          rw [List.filter_cons]
          split
          · rw [List.take_succ_cons, List.mem_cons]
            exact isFirst.imp_right inductionHypothesis
          · rename_i isDropped
            rcases isFirst with rfl | isLater
            · exact absurd isKept isDropped
            · exact (List.take_sublist_take_left (Nat.le_succ count)).subset
                (inductionHypothesis isLater)

/-- Items that all come before others are sorted in front of them. -/
theorem sortOn_append {items first second : List Item} (differ : KeysDiffer key items)
    (parts : items.Perm (first ++ second))
    (before : ∀ item ∈ first, ∀ other ∈ second, key item ≤ key other) :
    sortOn key items = sortOn key first ++ sortOn key second := by
  symm
  apply eq_sortOn differ
  · exact ((perm_sortOn key first).append (perm_sortOn key second)).trans parts.symm
  · rw [List.pairwise_append]
    refine ⟨pairwise_sortOn key first, pairwise_sortOn key second, ?_⟩
    intro item isItem other isOther
    exact before item ((mem_sortOn key).mp isItem) other ((mem_sortOn key).mp isOther)

/-- Rows that are sorted as their items are. -/
theorem sortOn_map {Row RowKey : Type*} [LinearOrder RowKey] {rowKey : Row → RowKey}
    {item : Row → Item} {rows : List Row} (differ : KeysDiffer key (rows.map item))
    (sorts : ∀ first second, rowKey first ≤ rowKey second → key (item first) ≤ key (item second)) :
    sortOn key (rows.map item) = (sortOn rowKey rows).map item := by
  symm
  apply eq_sortOn differ ((perm_sortOn rowKey rows).map item)
  rw [List.pairwise_map]
  exact (pairwise_sortOn rowKey rows).imp fun {_ _} less => sorts _ _ less

theorem mem_map_take_iff {Row : Type*} {item : Row → Item} {rows : List Row} {count : Nat}
    (distinct : (rows.map item).Nodup) {row : Row} (isRow : row ∈ rows) :
    item row ∈ (rows.take count).map item ↔ row ∈ rows.take count := by
  constructor
  · intro isImage
    have ⟨other, isOther, same⟩ := List.mem_map.mp isImage
    have sameRow : other = row :=
      List.inj_on_of_nodup_map distinct (List.mem_of_mem_take isOther) isRow same
    exact sameRow ▸ isOther
  · exact List.mem_map_of_mem

variable [DecidableEq Item] {chosen items : List Item}

/-- A selection is sorted as all items are. -/
theorem sortOn_eq_filter (differ : KeysDiffer key items) (distinct : items.Nodup)
    (chosenDistinct : chosen.Nodup) (selected : chosen ⊆ items) :
    sortOn key chosen = (sortOn key items).filter (· ∈ chosen) := by
  symm
  apply eq_sortOn
  · intro first isFirst second isSecond
    exact differ first (selected isFirst) second (selected isSecond)
  · apply (List.perm_ext_iff_of_nodup ?_ chosenDistinct).mpr
    · intro item
      rw [List.mem_filter, mem_sortOn, decide_eq_true_iff]
      exact ⟨And.right, fun isChosen => ⟨selected isChosen, isChosen⟩⟩
    · exact ((perm_sortOn key items).nodup_iff.mpr distinct).filter _
  · exact (pairwise_sortOn key items).sublist List.filter_sublist

/-- The first of all items are the first of their own selection. -/
theorem mem_take_sortOn (differ : KeysDiffer key items) (distinct : items.Nodup)
    (chosenDistinct : chosen.Nodup) (selected : chosen ⊆ items) {count : Nat} {item : Item}
    (isChosen : item ∈ chosen) (isFirst : item ∈ (sortOn key items).take count) :
    item ∈ (sortOn key chosen).take count := by
  rw [sortOn_eq_filter differ distinct chosenDistinct selected]
  exact mem_take_filter isFirst (decide_eq_true isChosen)

/-- Rows that are listed as their items are sorted: those of the first items are
the first of the rows. -/
theorem mem_take_of_sorts {Row RowKey : Type*} [LinearOrder RowKey] {rowKey : Row → RowKey}
    {item : Row → Item} {rows : List Row} (differ : KeysDiffer key items) (distinct : items.Nodup)
    (rowsDistinct : ((sortOn rowKey rows).map item).Nodup)
    (selected : (sortOn rowKey rows).map item ⊆ items)
    (sorts : ∀ first second, rowKey first ≤ rowKey second → key (item first) ≤ key (item second))
    {count : Nat} {row : Row} (isRow : row ∈ sortOn rowKey rows)
    (isFirst : item row ∈ (sortOn key items).take count) :
    row ∈ (sortOn rowKey rows).take count := by
  have isSorted : (sortOn rowKey rows).map item = sortOn key ((sortOn rowKey rows).map item) := by
    apply eq_sortOn _ (List.Perm.refl _)
    · rw [List.pairwise_map]
      exact (pairwise_sortOn rowKey rows).imp fun {_ _} less => sorts _ _ less
    · intro first isOne second isOther
      exact differ first (selected isOne) second (selected isOther)
  have isFirstRow := mem_take_sortOn differ distinct rowsDistinct selected
    (List.mem_map_of_mem isRow) isFirst
  rw [← isSorted, ← List.map_take] at isFirstRow
  exact (mem_map_take_iff rowsDistinct isRow).mp isFirstRow

/-- The first of a selection are the first of all exactly if it contains these. -/
theorem take_sortOn_eq_iff (differ : KeysDiffer key items) (distinct : items.Nodup)
    (chosenDistinct : chosen.Nodup) (selected : chosen ⊆ items) {count : Nat} :
    (sortOn key chosen).take count = (sortOn key items).take count ↔
      ∀ item ∈ (sortOn key items).take count, item ∈ chosen := by
  rw [sortOn_eq_filter differ distinct chosenDistinct selected, take_filter_eq_iff]
  simp only [decide_eq_true_eq]

end Sorting

/-! ### Pages -/

section Pages

variable {Item : Type*}

/-- `items[(number - 1) * size:number * size]`. -/
def pageOf (size number : Nat) (items : List Item) : List Item :=
  (items.drop ((number - 1) * size)).take size

/-- The first pages one behind the other. -/
def concatenated (pages : Nat → List Item) (count : Nat) : List Item :=
  (List.range count).flatMap fun index => pages (index + 1)

variable {pages : Nat → List Item} {size : Nat}

theorem concatenated_succ (count : Nat) :
    concatenated pages (count + 1) = concatenated pages count ++ pages (count + 1) := by
  unfold concatenated
  rw [List.range_succ, List.flatMap_append, List.flatMap_singleton]

theorem pageOf_map {Image : Type*} (change : Item → Image) (size number : Nat) (items : List Item) :
    pageOf size number (items.map change) = (pageOf size number items).map change := by
  unfold pageOf
  rw [List.map_take, List.map_drop]

theorem prefix_concatenated (pages : Nat → List Item) {first second : Nat} (less : first ≤ second) :
    concatenated pages first <+: concatenated pages second := by
  induction less with
  | refl => exact List.prefix_rfl
  | step _ inductionHypothesis =>
      rw [concatenated_succ]
      exact inductionHypothesis.trans (List.prefix_append _ _)

/-- Pages that are cut from one list give its beginning. -/
theorem concatenated_of_pageOf {items : List Item}
    (cut : ∀ number, pages (number + 1) = pageOf size (number + 1) items) (count : Nat) :
    concatenated pages count = items.take (count * size) := by
  induction count with
  | zero => simp [concatenated]
  | succ count inductionHypothesis =>
      rw [concatenated_succ, inductionHypothesis, cut, pageOf, Nat.add_sub_cancel, Nat.succ_mul,
        List.take_add]

theorem pageOf_congr {first second : List Item} {number : Nat} (positive : 1 ≤ number)
    (same : first.take (number * size) = second.take (number * size)) :
    pageOf size number first = pageOf size number second := by
  have start : number * size = (number - 1) * size + size := by
    rw [← Nat.succ_mul, Nat.succ_eq_add_one, Nat.sub_add_cancel positive]
  have cut (items : List Item) :
      pageOf size number items = (items.take (number * size)).drop ((number - 1) * size) := by
    rw [start, List.drop_take, Nat.add_sub_cancel_left]
    rfl
  rw [cut, cut, same]

/-! ### The first items of several lists -/

/-- The first items of each list. -/
def firsts (count : Nat) (lists : List (List Item)) : List Item :=
  lists.flatMap (·.take count)

theorem firsts_sublist (count : Nat) (lists : List (List Item)) :
    (firsts count lists).Sublist lists.flatten := by
  induction lists with
  | nil => exact List.Sublist.slnil
  | cons first rest inductionHypothesis =>
      rw [firsts, List.flatMap_cons, List.flatten_cons]
      exact (List.take_sublist count first).append inductionHypothesis

theorem firsts_mono {first second : Nat} (less : first ≤ second) (lists : List (List Item)) :
    firsts first lists ⊆ firsts second lists := by
  intro item member
  rw [firsts, List.mem_flatMap] at member ⊢
  obtain ⟨list, isList, isFirst⟩ := member
  exact ⟨list, isList, (List.take_sublist_take_left less).subset isFirst⟩

theorem min_length_le_firsts (count : Nat) (lists : List (List Item)) :
    min count lists.flatten.length ≤ (firsts count lists).length := by
  induction lists with
  | nil => simp
  | cons first rest inductionHypothesis =>
      rw [firsts, List.flatMap_cons, List.flatten_cons, List.length_append, List.length_append,
        List.length_take]
      rw [firsts] at inductionHypothesis
      omega

/-! ### Pages of a selection -/

/-- The pages of selections that grow with the page and are long enough. -/
structure Selections (sorted : List Item) (size : Nat) (keeps : Nat → Item → Bool)
    (pages : Nat → List Item) : Prop where
  distinct : sorted.Nodup
  positive : 0 < size
  cut : ∀ number, 1 ≤ number → pages number = pageOf size number (sorted.filter (keeps number))
  grows : ∀ first second item, first ≤ second → keeps first item → keeps second item
  enough : ∀ number, min (number * size) sorted.length ≤ (sorted.filter (keeps number)).length

variable {sorted : List Item} {keeps : Nat → Item → Bool}

/-- Every page takes the first items from the order. -/
def Agrees (sorted : List Item) (size : Nat) (keeps : Nat → Item → Bool) : Prop :=
  ∀ number, 1 ≤ number → ∀ item ∈ sorted.take (number * size), keeps number item = true

/-- They are then cut from the order itself. -/
theorem Selections.pages_of_agrees (selections : Selections sorted size keeps pages)
    (agrees : Agrees sorted size keeps) {number : Nat} (isPage : 1 ≤ number) :
    pages number = pageOf size number sorted := by
  rw [selections.cut number isPage]
  exact pageOf_congr isPage (take_filter_eq_iff.mpr (agrees number isPage))

theorem Selections.length_concatenated (selections : Selections sorted size keeps pages)
    (count : Nat) : (concatenated pages count).length = min (count * size) sorted.length := by
  induction count with
  | zero => simp [concatenated]
  | succ count inductionHypothesis =>
      have enough := selections.enough (count + 1)
      have atMost : (sorted.filter (keeps (count + 1))).length ≤ sorted.length :=
        List.length_filter_le _ _
      rw [concatenated_succ, List.length_append, inductionHypothesis,
        selections.cut _ (Nat.le_add_left 1 count), pageOf, List.length_take, List.length_drop,
        Nat.add_sub_cancel]
      rw [Nat.succ_mul] at enough ⊢
      omega

/-- Every item stands at its position in the order or before it. -/
def Behind (position : Item → Nat) (start : Nat) (items : List Item) : Prop :=
  ∀ index item, items[index]? = some item → start + index ≤ position item

theorem Behind.append {position : Item → Nat} {start next : Nat} {first second : List Item}
    (before : Behind position start first) (after : Behind position next second)
    (long : start + first.length ≤ next) : Behind position start (first ++ second) := by
  intro index item isItem
  rcases lt_or_ge index first.length with inFirst | inSecond
  · rw [List.getElem?_append_left inFirst] at isItem
    exact before index item isItem
  · rw [List.getElem?_append_right inSecond] at isItem
    have bound := after _ item isItem
    omega

theorem Behind.pageOf {position : Item → Nat} {items : List Item} (behind : Behind position 0 items)
    (number : Nat) : Behind position ((number - 1) * size) (pageOf size number items) := by
  intro index item isItem
  unfold Foundations.pageOf at isItem
  rw [List.getElem?_take] at isItem
  split_ifs at isItem
  rw [List.getElem?_drop] at isItem
  have bound := behind _ item isItem
  omega

variable [DecidableEq Item]

/-- A selection moves its items to the front. -/
theorem behind_filter (distinct : sorted.Nodup) (keeps : Item → Bool) :
    Behind sorted.idxOf 0 (sorted.filter keeps) := by
  have ⟨place, isPlace⟩ := List.sublist_iff_exists_orderEmbedding_getElem?_eq.mp
    (List.filter_sublist (p := keeps) (l := sorted))
  intro index item isItem
  rw [isPlace] at isItem
  have ⟨inside, isPlaced⟩ := List.getElem?_eq_some_iff.mp isItem
  show 0 + index ≤ sorted.idxOf item
  rw [Nat.zero_add, ← isPlaced, distinct.idxOf_getElem]
  exact place.strictMono.le_apply

theorem eq_of_behind {items : List Item} (distinct : sorted.Nodup) (same : items.Perm sorted)
    (behind : Behind sorted.idxOf 0 items) : items = sorted := by
  induction sorted using List.reverseRecOn generalizing items with
  | nil => exact same.eq_nil
  | append_singleton init last inductionHypothesis =>
      have lengths := same.length_eq
      rw [List.length_append, List.length_singleton] at lengths
      obtain ⟨before, item, rfl⟩ : ∃ before item, items = before ++ [item] := by
        have nonempty : items ≠ [] := List.ne_nil_of_length_eq_add_one lengths
        exact ⟨items.dropLast, items.getLast nonempty, (List.dropLast_append_getLast nonempty).symm⟩
      rw [List.length_append, List.length_singleton, Nat.add_right_cancel_iff] at lengths
      have isLast : item = last := by
        have bound := behind before.length item (by simp)
        have member : item ∈ init ++ [last] := same.mem_iff.mp (by simp)
        rcases List.mem_append.mp member with inInit | isLast
        · dsimp only at bound
          rw [List.idxOf_append_of_mem inInit] at bound
          have inside := List.idxOf_lt_length_of_mem inInit
          omega
        · exact List.mem_singleton.mp isLast
      rw [isLast] at same behind ⊢
      have sameInit : before.Perm init := (List.perm_append_right_iff [last]).mp same
      congr 1
      apply inductionHypothesis distinct.of_append_left sameInit
      intro index other isOther
      have inInit := sameInit.mem_iff.mp (List.mem_of_getElem? isOther)
      have ⟨inside, _⟩ := List.getElem?_eq_some_iff.mp isOther
      have bound := behind index other (by rw [List.getElem?_append_left inside, isOther])
      dsimp only at bound ⊢
      rwa [List.idxOf_append_of_mem inInit] at bound

theorem Selections.behind_concatenated (selections : Selections sorted size keeps pages)
    (count : Nat) : Behind sorted.idxOf 0 (concatenated pages count) := by
  induction count with
  | zero =>
      intro index item isItem
      simp [concatenated] at isItem
  | succ count inductionHypothesis =>
      rw [concatenated_succ, selections.cut _ (Nat.le_add_left 1 count)]
      have last : Behind sorted.idxOf ((count + 1 - 1) * size)
          (pageOf size (count + 1) (sorted.filter (keeps (count + 1)))) :=
        (behind_filter selections.distinct (keeps (count + 1))).pageOf (count + 1)
      apply inductionHypothesis.append last
      rw [selections.length_concatenated, Nat.add_sub_cancel]
      omega

/-- Pages that give every item once give the items in order, and every selection
then has the first items. -/
theorem Selections.agrees_of_perm (selections : Selections sorted size keeps pages)
    (once : ∀ count, sorted.length ≤ count * size → (concatenated pages count).Perm sorted) :
    Agrees sorted size keeps := by
  intro number positive item isFirst
  have long : sorted.length ≤ (number + sorted.length) * size :=
    (Nat.le_add_left _ number).trans (Nat.le_mul_of_pos_right _ selections.positive)
  have inOrder : concatenated pages (number + sorted.length) = sorted :=
    eq_of_behind selections.distinct (once _ long) (selections.behind_concatenated _)
  have start : concatenated pages number = sorted.take (number * size) := by
    have begins := prefix_concatenated pages (Nat.le_add_right number sorted.length)
    rw [inOrder] at begins
    have length := selections.length_concatenated number
    rw [List.prefix_iff_eq_take.mp begins, length]
    exact List.take_eq_take_min.symm
  rw [← start, concatenated, List.mem_flatMap] at isFirst
  have ⟨index, inside, onPage⟩ := isFirst
  rw [selections.cut _ (Nat.le_add_left 1 index), pageOf] at onPage
  have isKept := List.of_mem_filter (List.mem_of_mem_drop (List.mem_of_mem_take onPage))
  exact selections.grows _ _ item (List.mem_range.mp inside) isKept

/-! ### Pages of several lists -/

variable {Key : Type*} [LinearOrder Key] {key : Item → Key} {lists : List (List Item)}

/-- Pages that are cut from the sorted first items of each list. -/
theorem selections_firsts (positive : 0 < size) (distinct : lists.flatten.Nodup)
    (differ : KeysDiffer key lists.flatten) :
    Selections (sortOn key lists.flatten) size
      (fun number item => decide (item ∈ firsts (number * size) lists))
      fun number => pageOf size number (sortOn key (firsts (number * size) lists)) := by
  have isFilter (number : Nat) : sortOn key (firsts (number * size) lists) =
      (sortOn key lists.flatten).filter fun item => decide (item ∈ firsts (number * size) lists) :=
    sortOn_eq_filter differ distinct ((firsts_sublist _ lists).nodup distinct)
      (firsts_sublist _ lists).subset
  constructor
  · exact (perm_sortOn key lists.flatten).nodup_iff.mpr distinct
  · exact positive
  · intro number _
    rw [isFilter]
  · intro first second item less isFirst
    rw [decide_eq_true_iff] at isFirst ⊢
    exact firsts_mono (Nat.mul_le_mul_right size less) lists isFirst
  · intro number
    rw [← isFilter, length_sortOn, length_sortOn]
    exact min_length_le_firsts _ lists

end Pages

end BubllioCrm.Foundations
