set_option autoImplicit false

/-!
Dictionaries with text keys, kept in ascending order of their keys, one entry a key. A later
insertion of a key takes the place of the earlier one. Main statements: a look-up after an
insertion finds the new value at the inserted key and is unchanged elsewhere, a look-up in the
dictionary of a list finds the last entry of the key, and a list in order is its own dictionary.
-/

namespace Chart

abbrev Dictionary (Entry : Type) := List (String × Entry)

namespace Dictionary

variable {Entry : Type}

def find? : Dictionary Entry → String → Option Entry
  | [], _ => none
  | (name, entry) :: rest, key => if name = key then some entry else find? rest key

def contains (entries : Dictionary Entry) (key : String) : Bool :=
  (find? entries key).isSome

/-- Puts the entry before the first greater key, or in the place of an equal one. -/
def insert : Dictionary Entry → String → Entry → Dictionary Entry
  | [], key, entry => [(key, entry)]
  | (name, old) :: rest, key, entry =>
      if name = key then (key, entry) :: rest
      else if key < name then (key, entry) :: (name, old) :: rest
      else (name, old) :: insert rest key entry

/-- Of two entries of one key the later one stays. -/
def ofList (entries : List (String × Entry)) : Dictionary Entry :=
  entries.foldl (fun sorted pair => insert sorted pair.1 pair.2) []

@[simp] theorem find?_nil (key : String) : find? ([] : Dictionary Entry) key = none := rfl

theorem find?_insert_self (entries : Dictionary Entry) (key : String) (entry : Entry) :
    find? (insert entries key entry) key = some entry := by
  induction entries with
  | nil => simp [insert, find?]
  | cons first rest ih =>
      obtain ⟨name, old⟩ := first
      by_cases same : name = key
      · simp [insert, find?, same]
      · by_cases before : key < name
        · simp [insert, find?, same, before]
        · simp [insert, find?, same, before, ih]

theorem find?_insert_of_ne (entries : Dictionary Entry) {key other : String} (entry : Entry)
    (different : key ≠ other) :
    find? (insert entries key entry) other = find? entries other := by
  induction entries with
  | nil => simp [insert, find?, different]
  | cons first rest ih =>
      obtain ⟨name, old⟩ := first
      by_cases same : name = key
      · subst same
        simp [insert, find?, different]
      · by_cases before : key < name
        · simp [insert, find?, same, before, different]
        · simp [insert, find?, same, before, ih]

theorem find?_insert (entries : Dictionary Entry) (key other : String) (entry : Entry) :
    find? (insert entries key entry) other =
      if key = other then some entry else find? entries other := by
  by_cases same : key = other
  · subst same
    simp [find?_insert_self]
  · simp [same, find?_insert_of_ne entries entry same]

theorem find?_ofList (entries : List (String × Entry)) (key : String) :
    find? (ofList entries) key = find? entries.reverse key := by
  rw [ofList, List.foldl_eq_foldr_reverse]
  induction entries.reverse with
  | nil => rfl
  | cons last earlier ih => rw [List.foldr_cons, find?_insert, ih, find?]

theorem find?_of_mem {entries : List (String × Entry)} {key : String} {entry : Entry}
    (distinct : (entries.map Prod.fst).Nodup) (held : (key, entry) ∈ entries) :
    find? entries key = some entry := by
  induction entries with
  | nil => cases held
  | cons first rest ih =>
      obtain ⟨name, old⟩ := first
      obtain ⟨fresh, distinct⟩ := List.nodup_cons.mp distinct
      rcases List.mem_cons.mp held with same | later
      · cases same
        rw [find?, if_pos rfl]
      · have different : name ≠ key := by
          rintro rfl
          exact fresh (List.mem_map.mpr ⟨(name, entry), later, rfl⟩)
        rw [find?, if_neg different, ih distinct later]

theorem insert_of_greatest {entries : Dictionary Entry} {key : String}
    (greatest : ∀ held ∈ entries, held.1 < key) (entry : Entry) :
    insert entries key entry = entries ++ [(key, entry)] := by
  induction entries with
  | nil => rfl
  | cons first rest ih =>
      obtain ⟨name, old⟩ := first
      have before : name < key := greatest (name, old) List.mem_cons_self
      have different : name ≠ key := fun same => String.lt_irrefl key (same ▸ before)
      have behind : ∀ held ∈ rest, held.1 < key := fun held later =>
        greatest held (List.mem_cons_of_mem _ later)
      rw [insert, if_neg different, if_neg (String.lt_asymm before), ih behind, List.cons_append]

theorem foldr_insert_of_descending {entries : List (String × Entry)}
    (descending : entries.Pairwise fun later earlier => earlier.1 < later.1) :
    entries.foldr (fun pair sorted => insert sorted pair.1 pair.2) [] = entries.reverse := by
  induction entries with
  | nil => rfl
  | cons last earlier ih =>
      obtain ⟨greatest, descending⟩ := List.pairwise_cons.mp descending
      rw [List.foldr_cons, ih descending, List.reverse_cons, insert_of_greatest]
      exact fun held inside => greatest held (List.mem_reverse.mp inside)

theorem ofList_of_ordered {entries : List (String × Entry)}
    (ordered : entries.Pairwise fun earlier later => earlier.1 < later.1) :
    ofList entries = entries := by
  rw [ofList, List.foldl_eq_foldr_reverse,
    foldr_insert_of_descending (List.pairwise_reverse.mpr ordered), List.reverse_reverse]

end Dictionary
end Chart
