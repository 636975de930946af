import Modbusmq.Library.Reordering

/-!
# Settings

Records whose fields are set by name from texts. A table lists the names with
how a value is read and where it goes; updates of different fields commute, and
so do updates of the numbered elements of a list.
-/

namespace Settings

open Reordering

variable {R : Type}

/-- A field: how its value is read from a text, and where it goes. -/
structure Setting (R : Type) where
  Value : Type
  read : List Char → Option Value
  put : Value → R → R

def Setting.total {α : Type} (read : List Char → α) (put : α → R → R) : Setting R :=
  ⟨α, fun text => some (read text), put⟩

def Setting.checked {α : Type} (read : List Char → α) (ok : α → Bool) (put : α → R → R) :
    Setting R :=
  ⟨α, fun text => if ok (read text) then some (read text) else none, put⟩

/-- Set the field to the value of a text, unless the text is refused. -/
def Setting.set (setting : Setting R) (text : List Char) (r : R) : Option R :=
  (setting.read text).map (setting.put · r)

/-- Two fields do not disturb each other. -/
def Setting.Apart (setting setting' : Setting R) : Prop :=
  ∀ value value' r, setting.put value (setting'.put value' r) =
    setting'.put value' (setting.put value r)

theorem Setting.Apart.symm {setting setting' : Setting R} (h : setting.Apart setting') :
    setting'.Apart setting := fun value value' r => (h value' value r).symm

theorem Setting.Apart.commute {setting setting' : Setting R} (h : setting.Apart setting')
    (text text' : List Char) : Commute (setting.set text) (setting'.set text') := by
  intro r
  unfold Setting.set
  cases hread : setting.read text with
  | none => cases hread' : setting'.read text' <;> simp
  | some value =>
    cases hread' : setting'.read text' with
    | none => simp
    | some value' => simp [h value value' r]

abbrev Table (R : Type) := List (String × Setting R)

/-- Set the field of this name; a name that the table does not have is skipped. -/
def assign (table : Table R) (name text : List Char) (r : R) : Option R :=
  match table.find? fun row => row.1.toList = name with
  | none => some r
  | some row => row.2.set text r

/-- The fields of a table do not disturb each other, but for those whose names are exempt. -/
def Independent (exempt : String → String → Prop) (table : Table R) : Prop :=
  table.Pairwise fun row row' => row.2.Apart row'.2 ∨ exempt row.1 row'.1

theorem assign_commute {exempt : String → String → Prop} {table : Table R}
    (h : Independent exempt table) {name name' : List Char} (hne : name ≠ name')
    (hexempt : ∀ key key', exempt key key' →
      ¬ (key.toList = name ∧ key'.toList = name') ∧ ¬ (key.toList = name' ∧ key'.toList = name))
    (text text' : List Char) : Commute (assign table name text) (assign table name' text') := by
  have hnone : ∀ name text, table.find? (fun row => row.1.toList = name) = none →
      assign table name text = some := by
    intro name text hfind
    funext r
    unfold assign
    rw [hfind]
  have hsome : ∀ name text row, table.find? (fun row => row.1.toList = name) = some row →
      row ∈ table ∧ row.1.toList = name ∧ assign table name text = row.2.set text := by
    intro name text row hfind
    refine ⟨List.mem_of_find?_eq_some hfind, by simpa using List.find?_some hfind, ?_⟩
    funext r
    unfold assign
    rw [hfind]
  cases hfind : table.find? (fun row => row.1.toList = name) with
  | none =>
    rw [hnone _ _ hfind]
    exact commute_some _
  | some row =>
    cases hfind' : table.find? (fun row => row.1.toList = name') with
    | none =>
      rw [hnone _ _ hfind']
      exact (commute_some _).symm
    | some row' =>
      obtain ⟨hmem, hname, heq⟩ := hsome name text row hfind
      obtain ⟨hmem', hname', heq'⟩ := hsome name' text' row' hfind'
      rw [heq, heq']
      apply Setting.Apart.commute
      have hrows : row ≠ row' := fun hsame => hne (by rw [← hname, ← hname', hsame])
      have hpair := List.Pairwise.forall_of_forall_of_flip
        (R := fun row row' : String × Setting R => row ≠ row' →
          row.2.Apart row'.2 ∨ exempt row.1 row'.1 ∨ exempt row'.1 row.1)
        (fun _ _ hno => absurd rfl hno) (h.imp fun hor _ => by tauto)
        (h.imp fun hor _ => hor.imp Setting.Apart.symm .inr)
      rcases hpair hmem hmem' hrows with hapart | hpair | hpair
      · exact hapart
      · exact absurd ⟨hname, hname'⟩ (hexempt _ _ hpair).1
      · exact absurd ⟨hname', hname⟩ (hexempt _ _ hpair).2

/-- What setting a name does: nothing, or what its row says. -/
theorem assign_row {table : Table R} {name text : List Char} {r r' : R}
    (h : assign table name text r = some r') :
    (r' = r ∧ ∀ row ∈ table, row.1.toList ≠ name) ∨
      ∃ row ∈ table, row.1.toList = name ∧ row.2.set text r = some r' := by
  unfold assign at h
  cases hfind : table.find? (fun row => row.1.toList = name) with
  | none =>
    rw [hfind] at h
    exact .inl ⟨(Option.some.inj h).symm, by simpa using List.find?_eq_none.1 hfind⟩
  | some row =>
    rw [hfind] at h
    exact .inr ⟨row, List.mem_of_find?_eq_some hfind, by simpa using List.find?_some hfind, h⟩

theorem assign_unknown {table : Table R} {name : List Char}
    (h : ∀ row ∈ table, row.1.toList ≠ name) (text : List Char) :
    assign table name text = some := by
  have hfind : table.find? (fun row => row.1.toList = name) = none :=
    List.find?_eq_none.2 fun row hrow => by simpa using h row hrow
  funext r
  unfold assign
  rw [hfind]

/-- A part of a record that can be read and replaced. -/
structure Place (S T : Type) where
  get : S → T
  set : T → S → S
  get_set : ∀ t s, get (set t s) = t
  set_set : ∀ t t' s, set t (set t' s) = set t s

variable {S T U : Type}

def Place.update (place : Place S T) (f : T → Option T) (s : S) : Option S :=
  (f (place.get s)).map (place.set · s)

/-- Two parts that have nothing in common. -/
structure Place.Apart (place : Place S T) (place' : Place S U) : Prop where
  left : ∀ u s, place.get (place'.set u s) = place.get s
  right : ∀ t s, place'.get (place.set t s) = place'.get s
  swap : ∀ t u s, place.set t (place'.set u s) = place'.set u (place.set t s)

theorem Place.update_commute (place : Place S T) {f g : T → Option T} (h : Commute f g) :
    Commute (place.update f) (place.update g) := by
  have hboth : ∀ f g : T → Option T, ∀ s, (place.update f s).bind (place.update g) =
      ((f (place.get s)).bind g).map (place.set · s) := by
    intro f g s
    unfold Place.update
    cases f (place.get s) with
    | none => rfl
    | some t => simp only [Option.map_some, Option.bind_some, place.get_set, place.set_set]
  intro s
  rw [hboth, hboth, h]

theorem Place.Apart.commute {place : Place S T} {place' : Place S U} (h : place.Apart place')
    (f : T → Option T) (g : U → Option U) : Commute (place.update f) (place'.update g) := by
  intro s
  unfold Place.update
  cases hf : f (place.get s) with
  | none => cases hg : g (place'.get s) <;> simp [h.left, hf]
  | some t =>
    cases hg : g (place'.get s) with
    | none => simp [h.right, hg]
    | some u => simp [h.left, h.right, hf, hg, h.swap]

def onElement (i : ℕ) (f : R → Option R) (l : List R) : Option (List R) :=
  (l[i]?.bind f).map (l.set i)

theorem onElement_set_self {i : ℕ} {l : List R} (hi : i < l.length) (g : R → Option R) (a : R) :
    onElement i g (l.set i a) = (g a).map (l.set i) := by
  unfold onElement
  rw [List.getElem?_set_self hi, Option.bind_some]
  exact congrArg (Option.map · (g a)) (funext fun _ => List.set_set a)

theorem onElement_set_ne {i j : ℕ} (hne : i ≠ j) (g : R → Option R) (l : List R) (a : R) :
    onElement j g (l.set i a) = (l[j]?.bind g).map fun b => (l.set i a).set j b := by
  unfold onElement
  rw [List.getElem?_set_ne hne]

theorem onElement_length {i : ℕ} {f : R → Option R} {l l' : List R}
    (h : onElement i f l = some l') : l'.length = l.length := by
  obtain ⟨a, -, rfl⟩ := Option.map_eq_some_iff.1 h
  exact List.length_set

/-- Updates of different elements commute, and so do those of one element if they do by
themselves. -/
theorem onElement_commute {i j : ℕ} {f g : R → Option R} (h : i ≠ j ∨ Commute f g) :
    Commute (onElement i f) (onElement j g) := by
  intro l
  by_cases heq : i = j
  · subst heq
    have hcommute := h.resolve_left (not_not.2 rfl)
    cases hl : l[i]? with
    | none => simp [onElement, hl]
    | some r =>
      have hi : i < l.length := (List.getElem?_eq_some_iff.1 hl).1
      have hboth : ∀ f g : R → Option R, (onElement i f l).bind (onElement i g) =
          ((f r).bind g).map (l.set i) := by
        intro f g
        unfold onElement
        rw [hl, Option.bind_some]
        cases f r with
        | none => rfl
        | some a => exact onElement_set_self hi g a
      rw [hboth, hboth, hcommute]
  · have hboth : ∀ {i j : ℕ} (f g : R → Option R), i ≠ j →
        (onElement i f l).bind (onElement j g) =
          (l[i]?.bind f).bind fun a => (l[j]?.bind g).map fun b => (l.set i a).set j b := by
      intro i j f g hne
      unfold onElement
      cases l[i]?.bind f with
      | none => rfl
      | some a => exact onElement_set_ne hne g l a
    rw [hboth f g heq, hboth g f (Ne.symm heq)]
    cases l[i]?.bind f with
    | none => cases l[j]?.bind g <;> rfl
    | some a =>
      cases l[j]?.bind g with
      | none => rfl
      | some b => exact congrArg some (List.set_comm a b heq)

/-- Update the element of this number, counted from one. A number that has no element is skipped,
or refused. -/
def onNumbered (skip : Bool) (n : ℤ) (f : R → Option R) (l : List R) : Option (List R) :=
  if n ≤ 0 ∨ (l.length : ℤ) < n then (if skip then some l else none)
  else onElement (n - 1).toNat f l

theorem onNumbered_length {skip : Bool} {n : ℤ} {f : R → Option R} {l l' : List R}
    (h : onNumbered skip n f l = some l') : l'.length = l.length := by
  unfold onNumbered at h
  split_ifs at h with hrange hskip
  · rw [Option.some.inj h]
  · exact onElement_length h

theorem onNumbered_getElem? {skip : Bool} {n : ℤ} {f : R → Option R} {l l' : List R}
    (h : onNumbered skip n f l = some l') (k : ℕ) :
    (n ≠ k + 1 ∨ l[k]? = none) ∧ l'[k]? = l[k]? ∨
      n = k + 1 ∧ ∃ r r', l[k]? = some r ∧ f r = some r' ∧ l'[k]? = some r' := by
  unfold onNumbered at h
  split_ifs at h with hrange hskip
  · obtain rfl := Option.some.inj h
    refine .inl ⟨?_, rfl⟩
    rw [List.getElem?_eq_none_iff]
    omega
  · obtain ⟨r', hr', rfl⟩ := Option.map_eq_some_iff.1 h
    obtain ⟨r, hr, hf⟩ := Option.bind_eq_some_iff.1 hr'
    by_cases hk : n = k + 1
    · have hindex : (n - 1).toNat = k := by omega
      rw [hindex] at hr ⊢
      exact .inr ⟨hk, r, r', hr, hf, List.getElem?_set_self (by omega)⟩
    · exact .inl ⟨.inl hk, List.getElem?_set_ne (by omega)⟩

theorem onNumbered_same {skip : Bool} {n : ℤ} {f : R → Option R} {l l' : List R}
    (hf : ∀ r r', f r = some r' → r' = r) (h : onNumbered skip n f l = some l') : l' = l := by
  apply List.ext_getElem?
  intro k
  rcases onNumbered_getElem? h k with ⟨-, hsame⟩ | ⟨-, r, r', hr, hr', hupdate⟩
  · exact hsame
  · rw [hupdate, hr, hf r r' hr']

theorem onNumbered_commute {skip : Bool} {n m : ℤ} {f g : R → Option R}
    (h : n ≠ m ∨ Commute f g) : Commute (onNumbered skip n f) (onNumbered skip m g) := by
  have hmissing : ∀ {n m : ℤ} {f g : R → Option R} {l : List R},
      n ≤ 0 ∨ (l.length : ℤ) < n → (onNumbered skip n f l).bind (onNumbered skip m g) =
        (onNumbered skip m g l).bind (onNumbered skip n f) := by
    intro n m f g l hn
    have hskip : ∀ l' : List R, l'.length = l.length →
        onNumbered skip n f l' = if skip then some l' else none := fun l' hlength =>
      if_pos (by rwa [hlength])
    rw [hskip l rfl]
    cases hg : onNumbered skip m g l with
    | none => cases skip <;> simp [hg]
    | some l' => cases skip <;> simp [hskip l' (onNumbered_length hg), hg]
  intro l
  by_cases hn : n ≤ 0 ∨ (l.length : ℤ) < n
  · exact hmissing hn
  by_cases hm : m ≤ 0 ∨ (l.length : ℤ) < m
  · exact (hmissing hm).symm
  have hfound : ∀ {n : ℤ} (f : R → Option R) (l' : List R), ¬ (n ≤ 0 ∨ (l.length : ℤ) < n) →
      l'.length = l.length → onNumbered skip n f l' = onElement (n - 1).toNat f l' :=
    fun f l' hn hlength => if_neg (by rwa [hlength])
  have hbind : ∀ {n m : ℤ} (f g : R → Option R), ¬ (n ≤ 0 ∨ (l.length : ℤ) < n) →
      ¬ (m ≤ 0 ∨ (l.length : ℤ) < m) → (onNumbered skip n f l).bind (onNumbered skip m g) =
        (onElement (n - 1).toNat f l).bind (onElement (m - 1).toNat g) := by
    intro n m f g hn hm
    rw [hfound f l hn rfl]
    cases hf : onElement (n - 1).toNat f l with
    | none => rfl
    | some l' => exact hfound g l' hm (onElement_length hf)
  rw [hbind f g hn hm, hbind g f hm hn]
  exact onElement_commute (h.imp_left fun hne => by omega) l

end Settings
