import Mathlib.Order.Bounds.Basic
import Mathlib.Order.Lattice.Nat
import Sundial.Proofs.FormulaSet.Ordering

/-!
# Formula sets in turn

Of the orders in which every key stands behind those it needs, `settle` finds a certain one. A key
joins the queue when the last of the keys it needs is settled, and keys that join it together do so
in the order of the set. So the order begins with the keys that need none, the others follow by the
place of the last key that they need, and no other order is like this (`order_inTurn`). Along the
order the chains of references do not get shorter.
-/

set_option autoImplicit false

namespace Sundial.FormulaSet

/-! ## Places in an order -/

/-- The place of the last of the needed keys in the order, counted from one; zero if there are
none. -/
def lastPlace (order needs : List String) : Nat :=
  needs.foldr (fun r place => max (order.idxOf r + 1) place) 0

/-- What the first key needs is complete earlier than what the second needs, or at the same place of
the order and the first one is in front among the keys. -/
def Before (needed : String → List String) (keys order : List String) (key key' : String) : Prop :=
  lastPlace order (needed key) < lastPlace order (needed key') ∨
    lastPlace order (needed key) = lastPlace order (needed key') ∧
      keys.idxOf key < keys.idxOf key'

section Places

variable {needed : String → List String} {keys order done more needs : List String}
  {key key' r : String} {n : Nat}

theorem lastPlace_le_iff : lastPlace order needs ≤ n ↔ ∀ r ∈ needs, order.idxOf r < n := by
  induction needs with
  | nil => simp [lastPlace]
  | cons r needs ih =>
    rw [List.forall_mem_cons, ← ih, lastPlace, List.foldr_cons, max_le_iff, Nat.succ_le_iff]
    rfl

theorem idxOf_lt_lastPlace (order : List String) (h : r ∈ needs) :
    order.idxOf r < lastPlace order needs :=
  lastPlace_le_iff.1 le_rfl r h

/-- The last place is that of one of the keys. -/
theorem exists_lastPlace (h : lastPlace order needs ≠ 0) :
    ∃ r ∈ needs, order.idxOf r + 1 = lastPlace order needs := by
  by_contra hno
  push Not at hno
  have hle : lastPlace order needs ≤ lastPlace order needs - 1 := by
    rw [lastPlace_le_iff]
    intro r hr
    have hlt := idxOf_lt_lastPlace order hr
    have hne := hno r hr
    omega
  omega

theorem lastPlace_eq_zero_iff : lastPlace order needs = 0 ↔ needs = [] := by
  rw [← Nat.le_zero, lastPlace_le_iff]
  constructor
  · intro h
    exact List.eq_nil_iff_forall_not_mem.2 fun r hr => absurd (h r hr) (Nat.not_lt_zero _)
  · rintro rfl r hr
    cases hr

/-- Keys that come later do not move the earlier ones. -/
theorem lastPlace_append (h : ∀ r ∈ needs, r ∈ done) :
    lastPlace (done ++ more) needs = lastPlace done needs := by
  induction needs with
  | nil => rfl
  | cons r needs ih =>
    rw [List.forall_mem_cons] at h
    have hplace : (done ++ more).idxOf r = done.idxOf r := List.idxOf_append_of_mem h.1
    have hrest := ih h.2
    simp only [lastPlace, List.foldr_cons] at hrest ⊢
    rw [hplace, hrest]

theorem lastPlace_le_length (h : ∀ r ∈ needs, r ∈ done) : lastPlace done needs ≤ done.length :=
  lastPlace_le_iff.2 fun r hr => List.idxOf_lt_length_of_mem (h r hr)

/-- What needs the key that was settled last is complete with it. -/
theorem lastPlace_snoc (hkey : key ∉ done) (hmem : key ∈ needs)
    (h : ∀ r ∈ needs, r ∈ done ++ [key]) : lastPlace (done ++ [key]) needs = done.length + 1 := by
  have hle := lastPlace_le_length h
  have hlt := idxOf_lt_lastPlace (done ++ [key]) hmem
  rw [List.idxOf_append_of_notMem hkey, List.idxOf_cons_self] at hlt
  rw [List.length_append, List.length_singleton] at hle
  omega

theorem before_append_iff (hkey : ∀ r ∈ needed key, r ∈ done)
    (hkey' : ∀ r ∈ needed key', r ∈ done) :
    Before needed keys (done ++ more) key key' ↔ Before needed keys done key key' := by
  unfold Before
  rw [lastPlace_append hkey, lastPlace_append hkey']

theorem Before.le (h : Before needed keys order key key') :
    lastPlace order (needed key) ≤ lastPlace order (needed key') := by
  rcases h with h | ⟨h, -⟩ <;> omega

theorem Before.asymm (h : Before needed keys order key key') :
    ¬Before needed keys order key' key := by
  unfold Before at h ⊢
  omega

/-- Members of a list without repetitions stand in the order of their places. -/
theorem pairwise_idxOf_lt (h : keys.Nodup) :
    keys.Pairwise fun k k' => keys.idxOf k < keys.idxOf k' := by
  rw [List.pairwise_iff_getElem]
  intro i j hi hj hij
  rwa [h.idxOf_getElem, h.idxOf_getElem]

/-- Keys that are complete at one place have their turns in the order of the set. -/
theorem pairwise_before (hkeys : keys.Nodup) (hsublist : more.Sublist keys)
    (hplace : ∀ k ∈ more, lastPlace order (needed k) = n) :
    more.Pairwise (Before needed keys order) := by
  refine ((pairwise_idxOf_lt hkeys).sublist hsublist).imp_of_mem ?_
  intro k k' hk hk' hlt
  exact .inr ⟨(hplace k hk).trans (hplace k' hk').symm, hlt⟩

theorem rel_of_idxOf_lt {R : String → String → Prop} (h : order.Pairwise R) (hkey' : key' ∈ order)
    (hlt : order.idxOf key < order.idxOf key') : R key key' := by
  have hlength' := List.idxOf_lt_length_of_mem hkey'
  have hrel := List.pairwise_iff_getElem.1 h _ _ (hlt.trans hlength') hlength' hlt
  rwa [List.getElem_idxOf, List.getElem_idxOf] at hrel

end Places

/-! ## The queue in turn -/

section Queue

variable {needed : String → List String} {keys done queue : List String} {waiting : List Waiting}
  {key : String}

theorem divide_sublist (waiting : List Waiting) :
    (divide waiting).1.Sublist (waiting.map Prod.fst) :=
  List.filter_sublist.map Prod.fst

/-- Released keys join the queue in the order of the set. -/
theorem release_sublist (key : String) (keys done : List String) :
    (release key (unsettled needed keys done)).1.Sublist keys := by
  have hdivide := divide_sublist ((unsettled needed keys done).map fun w => (w.1, w.2.erase key))
  have hunsettled : ((unsettled needed keys done).map Prod.fst).Sublist keys := by
    simpa [unsettled, Function.comp_def] using (List.filter_sublist (l := keys.map fun k =>
      (k, (needed k).filter fun r => r ∉ done))).map Prod.fst
  refine List.Sublist.trans ?_ hunsettled
  simpa [release, Function.comp_def] using hdivide

/-- A key that is released has waited for the key that is settled. -/
theorem mem_needed_of_release {k : String}
    (hk : k ∈ (release key (unsettled needed keys done)).1) : key ∈ needed k := by
  simp only [release, divide, unsettled, List.mem_map, List.mem_filter] at hk
  obtain ⟨-, ⟨⟨-, ⟨⟨k', -, rfl⟩, hwaits⟩, rfl⟩, hempty⟩, rfl⟩ := hk
  have hne : (needed k').filter (fun r => r ∉ done) ≠ [] := by simpa using hwaits
  have hsingle : (needed k').filter (fun r => r ∉ done) = [key] :=
    (List.erase_eq_nil_iff.1 (List.isEmpty_iff.1 hempty)).resolve_left hne
  have hmem : key ∈ (needed k').filter (fun r => r ∉ done) := by
    rw [hsingle]
    exact List.mem_singleton_self key
  exact List.mem_of_mem_filter hmem

/-- What is settled or queued needs settled keys only. -/
theorem Settling.complete (h : Settling needed keys done queue waiting) {k : String}
    (hk : k ∈ done ++ queue) : ∀ r ∈ needed k, r ∈ done := by
  intro r hr
  rcases List.mem_append.1 hk with hdone | hqueue
  · obtain ⟨before, after, rfl⟩ := List.append_of_mem hdone
    exact List.mem_append_left _ (h.ordered before k after rfl r hr)
  · exact h.ready k hqueue r hr

/-- The keys that are settled or queued are in turn. -/
def Turned (needed : String → List String) (keys done queue : List String) : Prop :=
  (done ++ queue).Pairwise (Before needed keys done)

theorem turned_start (needed : String → List String) (hkeys : keys.Nodup) :
    Turned needed keys [] (divide (keys.map fun k => (k, needed k))).1 := by
  have hstart := settling_start needed keys
  have hsublist : (divide (keys.map fun k => (k, needed k))).1.Sublist keys := by
    simpa [Function.comp_def] using divide_sublist (keys.map fun k => (k, needed k))
  exact pairwise_before hkeys hsublist fun k hk =>
    Nat.le_zero.1 (lastPlace_le_length (hstart.ready k hk))

/-- The keys that join the queue have their turn at the key that is settled, later than all that
stood in the queue. -/
theorem Settling.turned_step (hnodup : ∀ k, (needed k).Nodup) (hkeys : keys.Nodup)
    (h : Settling needed keys done (key :: queue) waiting)
    (hturned : Turned needed keys done (key :: queue)) :
    Turned needed keys (done ++ [key]) (queue ++ (release key waiting).1) := by
  have hnext := h.step hnodup
  have hkey : key ∉ done := by
    have hall := h.perm.nodup_iff.2 hkeys
    rw [List.append_assoc] at hall
    exact fun hmem => List.disjoint_of_nodup_append hall hmem (by simp)
  have hreleased : ∀ k ∈ (release key waiting).1,
      lastPlace (done ++ [key]) (needed k) = done.length + 1 := by
    intro k hk
    have hcomplete := hnext.ready k (List.mem_append_right _ hk)
    rw [h.waiting_eq] at hk
    exact lastPlace_snoc hkey (mem_needed_of_release hk) hcomplete
  have hearlier : ∀ k ∈ done ++ key :: queue,
      lastPlace (done ++ [key]) (needed k) ≤ done.length := by
    intro k hk
    rw [lastPlace_append (h.complete hk)]
    exact lastPlace_le_length (h.complete hk)
  have hsplit : done ++ [key] ++ (queue ++ (release key waiting).1) =
      (done ++ key :: queue) ++ (release key waiting).1 := by simp
  rw [Turned, hsplit, List.pairwise_append]
  refine ⟨?_, ?_, ?_⟩
  · exact hturned.imp_of_mem fun hk hk' hbefore =>
      (before_append_iff (h.complete hk) (h.complete hk')).2 hbefore
  · have hsublist : (release key waiting).1.Sublist keys := by
      rw [h.waiting_eq]
      exact release_sublist key keys done
    exact pairwise_before hkeys hsublist hreleased
  · intro k hk k' hk'
    left
    rw [hreleased k' hk']
    exact Nat.lt_succ_of_le (hearlier k hk)

theorem Settling.turned_run (hnodup : ∀ k, (needed k).Nodup) (hkeys : keys.Nodup)
    (h : Settling needed keys done queue waiting) (hturned : Turned needed keys done queue) :
    Turned needed keys (done ++ (settle queue waiting).1) [] := by
  fun_induction settle queue waiting generalizing done with
  | case1 waiting => simpa using hturned
  | case2 waiting key queue released rest =>
    rename_i ih
    simpa [rest] using ih (h.step hnodup) (h.turned_step hnodup hkeys hturned)

end Queue

/-! ## There is one such order -/

section Unique

variable {needed : String → List String} {keys order order' before after after' : List String}
  {key x y : String}

theorem mem_of_idxOf_append_lt (h : (before ++ after).idxOf key < before.length) :
    key ∈ before := by
  by_contra hno
  rw [List.idxOf_append_of_notMem hno] at h
  omega

/-- Where two orders part, the key that goes on in one has not had its turn in the other. -/
theorem Before.not_before (h : Before needed keys (before ++ after) x y)
    (hx : ∀ r ∈ needed x, r ∈ before) : ¬Before needed keys (before ++ after') y x := by
  intro h'
  have hy : ∀ r ∈ needed y, r ∈ before := by
    intro r hr
    have hplace := h'.le
    rw [lastPlace_append hx] at hplace
    have hlt := lastPlace_le_iff.1 (hplace.trans (lastPlace_le_length hx)) r hr
    exact mem_of_idxOf_append_lt hlt
  rw [before_append_iff hx hy] at h
  rw [before_append_iff hy hx] at h'
  exact h.asymm h'

theorem mem_tail_of_perm (hnodup : (before ++ x :: after).Nodup)
    (hperm : (before ++ x :: after).Perm (before ++ y :: after')) (hne : y ≠ x) : x ∈ after' := by
  have hmem : x ∈ before ++ y :: after' := hperm.mem_iff.1 (by simp)
  have hfresh : x ∉ before := fun hbefore =>
    List.disjoint_of_nodup_append hnodup hbefore List.mem_cons_self
  simpa [hfresh, Ne.symm hne] using hmem

/-- The keys have but one order in turn in which each stands behind what it needs. -/
theorem eq_of_pairwise_before (hnodup : order.Nodup) (hperm : order.Perm order')
    (hordered : Ordered needed order) (hturn : order.Pairwise (Before needed keys order))
    (hturn' : order'.Pairwise (Before needed keys order')) : order' = order := by
  have hsame : ∀ rest before rest', order = before ++ rest → order' = before ++ rest' →
      rest' = rest := by
    intro rest
    -- On what is left of the first order, with what both have in common so far in front.
    induction rest with
    | nil =>
      rintro before rest' rfl rfl
      simpa using hperm.length_eq.symm
    | cons x rest ih =>
      intro before rest' horder horder'
      obtain ⟨y, rest', rfl⟩ : ∃ y ys, rest' = y :: ys := by
        apply List.exists_cons_of_ne_nil
        rintro rfl
        have hlength := hperm.length_eq
        simp [horder, horder'] at hlength
      obtain rfl : y = x := by
        by_contra hne
        rw [horder, horder'] at hperm
        have hx := mem_tail_of_perm (horder ▸ hnodup) hperm hne
        have hy := mem_tail_of_perm (hperm.nodup_iff.1 (horder ▸ hnodup)) hperm.symm (Ne.symm hne)
        rw [horder', List.pairwise_append, List.pairwise_cons] at hturn'
        rw [horder, List.pairwise_append, List.pairwise_cons] at hturn
        have hbefore := hturn.2.1.1 y hy
        exact hbefore.not_before (hordered before x rest horder) (hturn'.2.1.1 x hx)
      rw [ih (before ++ [y]) rest' (by simpa using horder) (by simpa using horder')]
  exact hsame order [] order' rfl rfl

/-- A list in which the property is lost for good begins with all that have it. -/
theorem filter_append_filter_of_pairwise {R : String → String → Prop} {p : String → Bool}
    (h : order.Pairwise R) (hp : ∀ a b, R a b → p b = true → p a = true) :
    order.filter p ++ order.filter (fun a => !p a) = order := by
  induction h with
  | nil => rfl
  | @cons a rest hrel hrest ih =>
    cases ha : p a with
    | true => simpa [ha] using ih
    | false =>
      have hlost : rest.filter p = [] := by
        rw [List.filter_eq_nil_iff]
        intro b hb hpb
        rw [hp a b (hrel b hb) hpb] at ha
        cases ha
      simpa [ha, hlost] using ih

end Unique

/-! ## The order of a set -/

variable {set : FormulaSet} {order : List String} {key other : String} {n : Nat}

/-- The keys that need none come first, in the order of the set. The others follow by the place of
the last key that they need, and where that is the same in the order of the set. -/
structure InTurn (set : FormulaSet) (order : List String) : Prop where
  perm : order.Perm set.keys
  split : ∃ others, order = set.keys.filter (fun k => (set.neededBy k).isEmpty) ++ others ∧
    others.Pairwise (Before set.neededBy set.keys order)

theorem InTurn.pairwise (h : set.InTurn order) :
    order.Pairwise (Before set.neededBy set.keys order) := by
  obtain ⟨hperm, others, horder, hothers⟩ := h
  have hnodup : order.Nodup := hperm.nodup_iff.2 set.nodup
  have hfree : ∀ k ∈ set.keys.filter (fun k => (set.neededBy k).isEmpty),
      lastPlace order (set.neededBy k) = 0 := by
    intro k hk
    exact lastPlace_eq_zero_iff.2 (List.isEmpty_iff.1 (List.mem_filter.1 hk).2)
  have hbound : ∀ k ∈ others, lastPlace order (set.neededBy k) ≠ 0 := by
    intro k hk hplace
    have hempty : (set.neededBy k).isEmpty = true :=
      List.isEmpty_iff.2 (lastPlace_eq_zero_iff.1 hplace)
    have hkey : k ∈ set.keys := hperm.mem_iff.1 (by rw [horder]; exact List.mem_append_right _ hk)
    rw [horder] at hnodup
    exact List.disjoint_of_nodup_append hnodup (List.mem_filter.2 ⟨hkey, hempty⟩) hk
  have hfirst : (set.keys.filter fun k => (set.neededBy k).isEmpty).Pairwise
      (Before set.neededBy set.keys order) :=
    pairwise_before set.nodup List.filter_sublist hfree
  have hcross : ∀ k ∈ set.keys.filter (fun k => (set.neededBy k).isEmpty), ∀ k' ∈ others,
      Before set.neededBy set.keys order k k' := by
    intro k hk k' hk'
    left
    rw [hfree k hk]
    exact Nat.pos_of_ne_zero (hbound k' hk')
  have hall := List.pairwise_append.2 ⟨hfirst, hothers, hcross⟩
  rwa [← horder] at hall

theorem inTurn_of_pairwise (hperm : order.Perm set.keys)
    (h : order.Pairwise (Before set.neededBy set.keys order)) : set.InTurn order := by
  have hfree : ∀ k, (set.neededBy k).isEmpty = true → lastPlace order (set.neededBy k) = 0 := by
    intro k hk
    exact lastPlace_eq_zero_iff.2 (List.isEmpty_iff.1 hk)
  have hsplit := filter_append_filter_of_pairwise (p := fun k => (set.neededBy k).isEmpty) h (by
    intro k k' hbefore hk'
    have hplace := hbefore.le
    rw [hfree k' hk', Nat.le_zero, lastPlace_eq_zero_iff] at hplace
    exact List.isEmpty_iff.2 hplace)
  have hfirst : (order.filter fun k => (set.neededBy k).isEmpty).Pairwise
      fun k k' => set.keys.idxOf k < set.keys.idxOf k' := by
    refine (h.sublist List.filter_sublist).imp_of_mem ?_
    intro k k' hk hk' hbefore
    have hplace := hfree k (List.mem_filter.1 hk).2
    have hplace' := hfree k' (List.mem_filter.1 hk').2
    unfold Before at hbefore
    omega
  have hsame : (order.filter fun k => (set.neededBy k).isEmpty) =
      set.keys.filter fun k => (set.neededBy k).isEmpty := by
    refine List.Perm.eq_of_pairwise ?_ hfirst
      ((pairwise_idxOf_lt set.nodup).sublist List.filter_sublist) (hperm.filter _)
    intro k k' _ _ hlt hlt'
    omega
  refine ⟨hperm, order.filter fun k => !(set.neededBy k).isEmpty, ?_, h.sublist List.filter_sublist⟩
  rw [← hsame]
  exact hsplit.symm

/-! ## Chains of references -/

/-- From the key on there are that many references, each from where the one before leads. -/
inductive LeadsOn (set : FormulaSet) : String → Nat → Prop
  | stop (key : String) : LeadsOn set key 0
  | refer {key other : String} {n : Nat} (h : set.Refers key other) (hn : LeadsOn set other n) :
      LeadsOn set key (n + 1)

/-- The length of the longest chain of references from the key on. -/
noncomputable def longestChain (set : FormulaSet) (key : String) : Nat :=
  sSup {n | set.LeadsOn key n}

/-- In an order a chain of references goes back towards the front. -/
theorem LeadsOn.le_idxOf (h : set.LeadsOn key n)
    (hsettling : Settling set.neededBy set.keys order [] []) (hkey : key ∈ order) :
    n ≤ order.idxOf key := by
  induction h with
  | stop key => exact Nat.zero_le _
  | refer hrefers _ ih =>
    obtain ⟨hother, hlt⟩ := hsettling.idxOf_lt hkey hrefers
    exact (ih hother).trans_lt hlt

/-- What can be followed from a key can be followed from every later one. -/
theorem LeadsOn.of_idxOf_le (h : set.LeadsOn key n) (hperm : order.Perm set.keys)
    (hturn : order.Pairwise (Before set.neededBy set.keys order)) {key' : String}
    (hkey' : key' ∈ order) (hle : order.idxOf key ≤ order.idxOf key') : set.LeadsOn key' n := by
  induction h generalizing key' with
  | stop key => exact .stop key'
  | @refer key other n hrefers _ ih =>
    have hkey : key ∈ order := hperm.mem_iff.2 hrefers.mem_left
    have hplace : lastPlace order (set.neededBy key) ≤ lastPlace order (set.neededBy key') := by
      rcases hle.lt_or_eq with hlt | heq
      · exact (rel_of_idxOf_lt hturn hkey' hlt).le
      · rw [(List.idxOf_inj hkey).1 heq]
    have hother := idxOf_lt_lastPlace order (mem_neededBy.2 hrefers)
    have hplace : lastPlace order (set.neededBy key') ≠ 0 := by omega
    obtain ⟨r, hr, hlast⟩ := exists_lastPlace hplace
    have hrefers' := mem_neededBy.1 hr
    exact .refer hrefers' (ih (hperm.mem_iff.2 hrefers'.mem_right) (by omega))

theorem isGreatest_longestChain (hsettling : Settling set.neededBy set.keys order [] [])
    (hkey : key ∈ order) : IsGreatest {n | set.LeadsOn key n} (set.longestChain key) := by
  have hbounded : BddAbove {n | set.LeadsOn key n} :=
    ⟨order.idxOf key, fun _ hn => LeadsOn.le_idxOf hn hsettling hkey⟩
  exact ⟨Nat.sSup_mem ⟨0, .stop key⟩ hbounded, fun _ hn => le_csSup hbounded hn⟩

/-- An order of the set is what settling all its keys comes to. -/
theorem settled_of_order (h : set.order = .ok order) :
    Settling set.neededBy set.keys order [] [] ∧ Turned set.neededBy set.keys order [] := by
  have hstart := settling_start set.neededBy set.keys
  have hrun := hstart.run set.nodup_neededBy
  have hturned := hstart.turned_run set.nodup_neededBy set.nodup (turned_start _ set.nodup)
  rw [List.nil_append] at hrun hturned
  rw [order_eq_settle] at h
  dsimp only at h
  split at h
  next hnone =>
    obtain rfl := Except.ok.inj h
    rw [hnone] at hrun
    exact ⟨hrun, hturned⟩
  next => cases h

/-- **The order of a set is in turn**, and it is the only one that is: first the keys that need
none, in the order of the set, then the others by the place of the last key that they need, in the
order of the set where that is the same. Along the order the longest chains of references do not
get shorter. -/
theorem order_inTurn (h : set.order = .ok order) :
    set.InTurn order ∧ (∀ order', set.InTurn order' → order' = order) ∧
      (∀ k ∈ order, IsGreatest {n | set.LeadsOn k n} (set.longestChain k)) ∧
      order.Pairwise fun k k' => set.longestChain k ≤ set.longestChain k' := by
  obtain ⟨hsettling, hturned⟩ := settled_of_order h
  have hperm : order.Perm set.keys := by simpa using hsettling.perm
  have hnodup : order.Nodup := hperm.nodup_iff.2 set.nodup
  have hturn : order.Pairwise (Before set.neededBy set.keys order) := by
    simpa [Turned] using hturned
  have hlongest : ∀ k ∈ order, IsGreatest {n | set.LeadsOn k n} (set.longestChain k) :=
    fun k hk => isGreatest_longestChain hsettling hk
  refine ⟨inTurn_of_pairwise hperm hturn, ?_, hlongest, ?_⟩
  · intro order' horder'
    exact eq_of_pairwise_before hnodup (hperm.trans horder'.perm.symm) hsettling.ordered hturn
      horder'.pairwise
  · refine (pairwise_idxOf_lt hnodup).imp_of_mem ?_
    intro k k' hk hk' hlt
    have hchain : set.LeadsOn k (set.longestChain k) := (hlongest k hk).1
    exact (hlongest k' hk').2 (hchain.of_idxOf_le hperm hturn hk' hlt.le)

/-- The last formula joins the queue earlier than the first one. -/
def staggered : FormulaSet :=
  .ofList [("vigil", "@dusk - 18min"), ("dawn", "sunrise"), ("dusk", "sunset"),
    ("noon", "midpoint(@dawn, sunset)")]

theorem order_staggered : staggered.order = .ok ["dawn", "dusk", "noon", "vigil"] ∧
    staggered.InTurn ["dawn", "dusk", "noon", "vigil"] ∧
    (∀ order', staggered.InTurn order' → order' = ["dawn", "dusk", "noon", "vigil"]) ∧
    staggered.longestChain "dusk" ≤ staggered.longestChain "noon" := by
  have horder : staggered.order = .ok ["dawn", "dusk", "noon", "vigil"] := by decide +kernel
  obtain ⟨hturn, hunique, -, hchains⟩ := order_inTurn horder
  refine ⟨horder, hturn, hunique, ?_⟩
  simp only [List.pairwise_cons] at hchains
  exact hchains.2.1 "noon" (by simp)

end Sundial.FormulaSet
