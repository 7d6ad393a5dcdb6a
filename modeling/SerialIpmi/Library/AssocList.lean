import Mathlib.Data.List.AList

/-! Finite maps whose values are changed in place and whose entries are swept out. -/
namespace AList

variable {α β : Type*}

/-- A walk that erases while it iterates: `it` is the position of the iterator, which stays
where an entry is erased and moves on past one that is kept. -/
def eraseFrom (expired : α → Bool) (entries : List α) (it : Nat) : List α :=
  if h : it < entries.length then
    if expired entries[it] then eraseFrom expired (entries.eraseIdx it) it
    else eraseFrom expired entries (it + 1)
  else entries
termination_by entries.length - it
decreasing_by
  · rw [List.length_eraseIdx_of_lt h]
    omega
  · omega

theorem eraseFrom_eq (expired : α → Bool) (entries : List α) (it : Nat) :
    eraseFrom expired entries it =
      entries.take it ++ (entries.drop it).filter fun e => !expired e := by
  fun_induction eraseFrom expired entries it with
  | case1 entries it h hexpired ih =>
    have hbefore : (entries.take it).length = it := by
      rw [List.length_take]
      omega
    have herased := List.eraseIdx_eq_take_drop_succ entries it
    rw [ih, List.drop_eq_getElem_cons h, List.filter_cons_of_neg (by simp [hexpired]), herased,
      List.take_left' hbefore, List.drop_left' hbefore]
  | case2 entries it h hkept ih =>
    rw [ih, List.drop_eq_getElem_cons h, List.filter_cons_of_pos (by simp [hkept]),
      List.take_succ_eq_append_getElem h, List.append_assoc]
    rfl
  | case3 entries it h =>
    rw [List.take_of_length_le (Nat.le_of_not_lt h), List.drop_eq_nil_of_le (Nat.le_of_not_lt h)]
    simp

theorem eraseFrom_zero (expired : α → Bool) (entries : List α) :
    eraseFrom expired entries 0 = entries.filter fun e => !expired e := by
  rw [eraseFrom_eq]
  rfl

def sweep (expired : β → Bool) (s : AList fun _ : α => β) : AList fun _ : α => β where
  entries := s.entries.filter fun e => !expired e.2
  nodupKeys := s.nodupKeys.sublist List.filter_sublist

theorem sweep_sweep (first second : β → Bool) (s : AList fun _ : α => β) :
    (s.sweep first).sweep second = s.sweep fun b => first b || second b := by
  apply AList.ext
  change (s.entries.filter fun e => !first e.2).filter (fun e => !second e.2) =
    s.entries.filter fun e => !(first e.2 || second e.2)
  rw [List.filter_filter]
  congr 1
  funext e
  rw [Bool.not_or, Bool.and_comm]

variable [DecidableEq α]

def modify (a : α) (f : β → β) (s : AList fun _ : α => β) : AList fun _ : α => β where
  entries := s.entries.map (Sigma.map id fun k b => if k = a then f b else b)
  nodupKeys := List.NodupKeys.map₂ (fun k b => if k = a then f b else b) s.entries s.nodupKeys

theorem lookup_modify (a k : α) (f : β → β) (s : AList fun _ : α => β) :
    (s.modify a f).lookup k = (s.lookup k).map fun b => if k = a then f b else b := by
  unfold lookup modify
  exact List.dlookup_map₂ k

theorem lookup_sweep (expired : β → Bool) (k : α) (s : AList fun _ : α => β) :
    (s.sweep expired).lookup k = (s.lookup k).filter fun b => !expired b := by
  ext b
  rw [← Option.mem_def, mem_lookup_iff, Option.filter_eq_some_iff, ← Option.mem_def, mem_lookup_iff]
  simp [sweep]

/-- Each element updates the value of its key. A key without a value starts from `init`. -/
def tally {γ : Type*} (key : γ → α) (update : γ → β → β) (init : β) (input : List γ)
    (s : AList fun _ : α => β) : AList fun _ : α => β :=
  input.foldl (fun s c => s.insert (key c) (update c ((s.lookup (key c)).getD init))) s

theorem tally_append {γ : Type*} (key : γ → α) (update : γ → β → β) (init : β)
    (left right : List γ) (s : AList fun _ : α => β) :
    tally key update init (left ++ right) s =
      tally key update init right (tally key update init left s) :=
  List.foldl_append

theorem lookup_tally {γ : Type*} (key : γ → α) (update : γ → β → β) (init : β) (input : List γ)
    (s : AList fun _ : α => β) (k : α) :
    (tally key update init input s).lookup k =
      if input.filter (key · = k) = [] then s.lookup k
      else some ((input.filter (key · = k)).foldl (fun b c => update c b)
        ((s.lookup k).getD init)) := by
  unfold tally
  induction input generalizing s with
  | nil => rfl
  | cons c input ih =>
    rw [List.foldl_cons, ih]
    by_cases hk : key c = k
    · rw [List.filter_cons_of_pos (by simpa using hk), if_neg (List.cons_ne_nil _ _), hk,
        lookup_insert, List.foldl_cons, Option.getD_some]
      split_ifs with hrest
      · rw [hrest, List.foldl_nil]
      · rfl
    · rw [List.filter_cons_of_neg (by simpa using hk), lookup_insert_ne (Ne.symm hk)]

end AList
