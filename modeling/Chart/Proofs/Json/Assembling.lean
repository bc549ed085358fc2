import Chart.Json.Read
import Chart.Proofs.Json.Scanning

set_option autoImplicit false

/-!
Reading a text that was written. A document has one list of tokens without anything superfluous,
and the stack of open lists and objects puts the document together from it again. A value without
floats is written as exactly the tokens of its document. Main statement: such a value, with its
whole numbers within a word of 64 bits, its objects in order and not too deep, is what its text is
read as.
-/

namespace Chart.Json

/-! ### Documents from tokens -/

mutual

def Document.tokens : Document → List Token
  | .null => [.null]
  | .truth value => [.truth value]
  | .number numeral => [.number numeral]
  | .text content => [.text content]
  | .list items => .openList :: (itemTokens items ++ [.closeList])
  | .object fields => .openObject :: (fieldTokens fields ++ [.closeObject])

def itemTokens : List Document → List Token
  | [] => []
  | [last] => last.tokens
  | first :: rest => first.tokens ++ .comma :: itemTokens rest

def fieldTokens : List (Option String × Document) → List Token
  | [] => []
  | [(key, last)] => .text key :: .colon :: last.tokens
  | (key, first) :: rest => .text key :: .colon :: (first.tokens ++ .comma :: fieldTokens rest)

end

variable {outer : List Container}

def run (position : Position) (tokens : List Token) : Option Position :=
  tokens.foldlM Position.step position

private theorem run_cons {position next : Position} {token : Token}
    (stepped : position.step token = some next) (tokens : List Token) :
    run position (token :: tokens) = run next tokens := by
  rw [run, List.foldlM_cons, stepped]
  rfl

private theorem exists_tokens (document : Document) :
    ∃ first rest, document.tokens = first :: rest ∧ first ≠ .closeList := by
  cases document <;> exact ⟨_, _, rfl, nofun⟩

private theorem exists_itemTokens (first : Document) (rest : List Document) :
    ∃ token tokens, itemTokens (first :: rest) = token :: tokens ∧ token ≠ .closeList := by
  obtain ⟨token, tokens, shape, opening⟩ := exists_tokens first
  cases rest with
  | nil => exact ⟨token, tokens, shape, opening⟩
  | cons second rest =>
      exact ⟨token, tokens ++ .comma :: itemTokens (second :: rest),
        congrArg (· ++ .comma :: itemTokens (second :: rest)) shape, opening⟩

private theorem run_firstItem {token : Token} (opening : token ≠ .closeList) (tokens : List Token) :
    run (.firstItem outer) (token :: tokens) =
      run (.value (.list [] :: outer)) (token :: tokens) := by
  cases token with
  | closeList => exact absurd rfl opening
  | _ => rfl

mutual

private theorem run_tokens (document : Document) (outer : List Container) (more : List Token) :
    run (.value outer) (document.tokens ++ more) = run (Position.complete document outer) more := by
  match document with
  | .null | .truth _ | .number _ | .text _ => rfl
  | .list [] => rfl
  | .list (first :: rest) =>
      obtain ⟨token, tokens, shape, opening⟩ := exists_itemTokens first rest
      have items := run_itemTokens (first :: rest) (List.cons_ne_nil _ _) [] outer more
      have opened : run (.value outer) ((Document.list (first :: rest)).tokens ++ more) =
          run (.firstItem outer) (itemTokens (first :: rest) ++ .closeList :: more) := by
        rw [Document.tokens, List.cons_append, run_cons rfl, List.append_assoc]
        rfl
      rw [opened, shape, List.cons_append, run_firstItem opening, ← List.cons_append, ← shape]
      exact items
  | .object [] => rfl
  | .object ((key, first) :: rest) =>
      have fields := run_fieldTokens ((key, first) :: rest) (List.cons_ne_nil _ _) [] outer more
      have opened : run (.value outer) ((Document.object ((key, first) :: rest)).tokens ++ more) =
          run (.firstKey outer) (fieldTokens ((key, first) :: rest) ++ .closeObject :: more) := by
        rw [Document.tokens, List.cons_append, run_cons rfl, List.append_assoc]
        rfl
      rw [opened]
      -- The first key is read like any other one, whether more fields follow or not.
      cases rest <;> exact fields

theorem run_itemTokens (items : List Document) (nonempty : items ≠ []) (done : List Document)
    (outer : List Container) (more : List Token) :
    run (.value (.list done :: outer)) (itemTokens items ++ .closeList :: more) =
      run (Position.complete (.list (done.reverse ++ items)) outer) more := by
  match items with
  | [] => exact absurd rfl nonempty
  | [last] =>
      rw [itemTokens, run_tokens, Position.complete, run_cons rfl, List.reverse_cons]
  | first :: second :: rest =>
      have next := run_itemTokens (second :: rest) (List.cons_ne_nil _ _) (first :: done) outer more
      rw [itemTokens, List.append_assoc, run_tokens, Position.complete, List.cons_append,
        run_cons rfl, next, List.reverse_cons, List.append_assoc]
      · rfl
      · nofun

theorem run_fieldTokens (fields : List (Option String × Document)) (nonempty : fields ≠ [])
    (done : List (Option String × Document)) (outer : List Container) (more : List Token) :
    run (.key outer done) (fieldTokens fields ++ .closeObject :: more) =
      run (Position.complete (.object (done.reverse ++ fields)) outer) more := by
  match fields with
  | [] => exact absurd rfl nonempty
  | [(key, last)] =>
      rw [fieldTokens, List.cons_append, run_cons rfl, List.cons_append, run_cons rfl, run_tokens,
        Position.complete, run_cons rfl, List.reverse_cons]
  | (key, first) :: second :: rest =>
      have next :=
        run_fieldTokens (second :: rest) (List.cons_ne_nil _ _) ((key, first) :: done) outer more
      rw [fieldTokens, List.cons_append, run_cons rfl, List.cons_append, run_cons rfl,
        List.append_assoc, run_tokens, Position.complete, List.cons_append, run_cons rfl, next,
        List.reverse_cons, List.append_assoc]
      · rfl
      · nofun

end

/-! ### Written values -/

mutual

/-- The document that a value is written as; a float has none here. -/
def document? : Value → Option Document
  | .null => some .null
  | .bool truth => some (.truth truth)
  | .int number => some (.number (.ofInt number))
  | .float _ => none
  | .text characters => some (.text (some characters))
  | .list items => (documents? items).map .list
  | .object fields => (fieldDocuments? fields).map .object

def documents? : List Value → Option (List Document)
  | [] => some []
  | first :: rest => do
      let document ← document? first
      let documents ← documents? rest
      return document :: documents

def fieldDocuments? : List (String × Value) → Option (List (Option String × Document))
  | [] => some []
  | (name, first) :: rest => do
      let document ← document? first
      let documents ← fieldDocuments? rest
      return (some name, document) :: documents

end

private theorem documents?_cons {first : Value} {others : List Value} {found : List Document}
    (each : documents? (first :: others) = some found) :
    ∃ document documents, document? first = some document ∧ documents? others = some documents ∧
      found = document :: documents := by
  simp only [documents?, Option.bind_eq_bind, Option.bind_eq_some_iff] at each
  obtain ⟨document, written, documents, behind, same⟩ := each
  exact ⟨document, documents, written, behind, (Option.some.inj same).symm⟩

private theorem fieldDocuments?_cons {name : String} {first : Value}
    {others : List (String × Value)}
    {found : List (Option String × Document)}
    (each : fieldDocuments? ((name, first) :: others) = some found) :
    ∃ document documents, document? first = some document ∧
      fieldDocuments? others = some documents ∧ found = (some name, document) :: documents := by
  simp only [fieldDocuments?, Option.bind_eq_bind, Option.bind_eq_some_iff] at each
  obtain ⟨document, written, documents, behind, same⟩ := each
  exact ⟨document, documents, written, behind, (Option.some.inj same).symm⟩

/-- The characters of a text that is written in parts. -/
def characters (parts : List String) : List Char :=
  parts.flatMap String.toList

variable {rest : List Char}

private theorem Scans.nil : Scans [] [] rest :=
  fun _ => rfl

private theorem Scans.cons {part : String} {parts : List String} {token : Token}
    {tokens : List Token}
    (front : Scans part.toList [token] (characters parts ++ rest))
    (behind : Scans (characters parts) tokens rest) :
    Scans (characters (part :: parts)) (token :: tokens) rest :=
  front.append behind

private theorem Scans.single {part : String} {token : Token}
    (alone : Scans part.toList [token] rest) :
    Scans (characters [part]) [token] rest :=
  Scans.cons alone Scans.nil

private theorem Scans.join {parts others : List String} {tokens more : List Token}
    (front : Scans (characters parts) tokens (characters others ++ rest))
    (behind : Scans (characters others) more rest) :
    Scans (characters (parts ++ others)) (tokens ++ more) rest := by
  rw [characters, List.flatMap_append]
  exact front.append behind

private theorem scans_comma (rest : List Char) : Scans ",".toList [.comma] rest :=
  Scans.of_scanToken (by decide) rfl

private theorem scans_colon (rest : List Char) : Scans ":".toList [.colon] rest :=
  Scans.of_scanToken (by decide) rfl

mutual

private theorem scans_parts (value : Value) (document : Document)
    (found : document? value = some document)
    (rest : List Char) (ended : Ended rest) :
    Scans (characters value.parts) document.tokens rest := by
  match value with
  | .null =>
      cases found
      exact Scans.single (Scans.of_scanToken (by decide) rfl)
  | .bool true =>
      cases found
      exact Scans.single (Scans.of_scanToken (by decide) rfl)
  | .bool false =>
      cases found
      exact Scans.single (Scans.of_scanToken (by decide) rfl)
  | .int number =>
      cases found
      exact Scans.single (scans_int number ended)
  | .float _ => cases found
  | .text characters =>
      cases found
      exact Scans.single (scans_quoted characters rest)
  | .list items =>
      obtain ⟨documents, each, rfl⟩ := Option.map_eq_some_iff.mp found
      have closed : Scans (characters ["]"]) [.closeList] rest :=
        Scans.single (Scans.of_scanToken (by decide) rfl)
      have inner := scans_itemParts items documents each _ (Ended.closeList rest)
      exact Scans.cons (Scans.of_scanToken (by decide) rfl) (inner.join closed)
  | .object fields =>
      obtain ⟨documents, each, rfl⟩ := Option.map_eq_some_iff.mp found
      have closed : Scans (characters ["\x7d"]) [.closeObject] rest :=
        Scans.single (Scans.of_scanToken (by decide) rfl)
      have inner := scans_fieldParts fields documents each _ (Ended.closeObject rest)
      exact Scans.cons (Scans.of_scanToken (by decide) rfl) (inner.join closed)

theorem scans_itemParts (items : List Value) (found : List Document)
    (each : documents? items = some found) (rest : List Char) (ended : Ended rest) :
    Scans (characters (Value.itemParts items)) (itemTokens found) rest := by
  match items with
  | [] =>
      cases each
      exact Scans.nil
  | [last] =>
      obtain ⟨document, _, written, behind, rfl⟩ := documents?_cons each
      cases behind
      exact scans_parts last document written rest ended
  | first :: second :: others =>
      -- The comma behind the first item ends it, should it be a number.
      obtain ⟨document, documents, written, behind, rfl⟩ := documents?_cons each
      have later := scans_itemParts (second :: others) documents behind rest ended
      obtain ⟨_, _, _, _, rfl⟩ := documents?_cons behind
      have behindComma := Scans.cons (scans_comma _) later
      exact (scans_parts first document written _ (Ended.comma _)).join behindComma

theorem scans_fieldParts (fields : List (String × Value))
    (found : List (Option String × Document)) (each : fieldDocuments? fields = some found)
    (rest : List Char) (ended : Ended rest) :
    Scans (characters (Value.fieldParts fields)) (fieldTokens found) rest := by
  match fields with
  | [] =>
      cases each
      exact Scans.nil
  | [(name, last)] =>
      obtain ⟨document, _, written, behind, rfl⟩ := fieldDocuments?_cons each
      cases behind
      have behindColon := scans_parts last document written rest ended
      exact Scans.cons (scans_quoted name _) (Scans.cons (scans_colon _) behindColon)
  | (name, first) :: second :: others =>
      obtain ⟨document, documents, written, behind, rfl⟩ := fieldDocuments?_cons each
      have later := scans_fieldParts (second :: others) documents behind rest ended
      obtain ⟨_, _, _, _, rfl⟩ := fieldDocuments?_cons behind
      have behindComma := Scans.cons (scans_comma _) later
      have behindColon := (scans_parts first document written _ (Ended.comma _)).join behindComma
      exact Scans.cons (scans_quoted name _) (Scans.cons (scans_colon _) behindColon)

end

theorem ofText?_write {value : Value} {document : Document}
    (found : document? value = some document) : Document.ofText? value.write = some document := by
  have tokens : scanTokens value.write.toList [] = some document.tokens := by
    have scanned := scans_parts value document found [] Ended.nil []
    rw [List.append_nil, scanTokens] at scanned
    rw [Value.write, String.toList_join, ← characters, scanned, List.append_nil,
      List.reverse_reverse]
  have assembled :
      document.tokens.foldlM Position.step (.value []) = some (.finished document) := by
    have complete := run_tokens document [] []
    rwa [List.append_nil] at complete
  simp only [Document.ofText?, tokens, assembled, Option.bind_eq_bind, Option.bind_some]

/-! ### Values from documents -/

mutual

/-- What a text can hold: no float, whole numbers of 64 bits, the fields of an object in order,
and lists and objects inside one another at most so deep. -/
def Plain (depth : Nat) : Value → Prop
  | .null | .bool _ | .text _ => True
  | .int number => Word.leastSigned ≤ number ∧ number < Word.limit
  | .float _ => False
  | .list items =>
      match depth with
      | 0 => False
      | inner + 1 => PlainItems inner items
  | .object fields =>
      match depth with
      | 0 => False
      | inner + 1 =>
          fields.Pairwise (fun earlier later => earlier.1 < later.1) ∧ PlainFields inner fields

def PlainItems (depth : Nat) : List Value → Prop
  | [] => True
  | first :: rest => Plain depth first ∧ PlainItems depth rest

def PlainFields (depth : Nat) : List (String × Value) → Prop
  | [] => True
  | (_, first) :: rest => Plain depth first ∧ PlainFields depth rest

end

mutual

private theorem exists_document {depth : Nat} (value : Value) (plain : Plain depth value) :
    ∃ document, document? value = some document ∧ document.value? depth = some value := by
  match value with
  | .null | .bool _ | .text _ => exact ⟨_, rfl, rfl⟩
  | .int number => exact ⟨_, rfl, Numeral.value?_ofInt plain.1 plain.2⟩
  | .float _ => exact absurd plain id
  | .list items =>
      cases depth with
      | zero => exact absurd plain id
      | succ inner =>
          obtain ⟨documents, written, read⟩ := exists_documents items plain
          exact ⟨.list documents, by rw [document?, written, Option.map_some],
            by rw [Document.value?, read, Option.map_some]⟩
  | .object fields =>
      cases depth with
      | zero => exact absurd plain id
      | succ inner =>
          obtain ⟨documents, written, read⟩ := exists_fieldDocuments fields plain.2
          exact ⟨.object documents, by rw [document?, written, Option.map_some],
            by rw [Document.value?, read, Option.map_some, Dictionary.ofList_of_ordered plain.1]⟩

theorem exists_documents {depth : Nat} (items : List Value) (plain : PlainItems depth items) :
    ∃ documents, documents? items = some documents ∧
      Document.values? depth documents = some items := by
  match items with
  | [] => exact ⟨[], rfl, rfl⟩
  | first :: rest =>
      obtain ⟨document, written, read⟩ := exists_document first plain.1
      obtain ⟨documents, others, behind⟩ := exists_documents rest plain.2
      exact ⟨document :: documents, by rw [documents?, written, others]; rfl,
        by rw [Document.values?, read, behind]; rfl⟩

theorem exists_fieldDocuments {depth : Nat} (fields : List (String × Value))
    (plain : PlainFields depth fields) :
    ∃ documents, fieldDocuments? fields = some documents ∧
      Document.fields? depth documents = some fields := by
  match fields with
  | [] => exact ⟨[], rfl, rfl⟩
  | (name, first) :: rest =>
      obtain ⟨document, written, read⟩ := exists_document first plain.1
      obtain ⟨documents, others, behind⟩ := exists_fieldDocuments rest plain.2
      exact ⟨(some name, document) :: documents, by rw [fieldDocuments?, written, others]; rfl,
        by rw [Document.fields?, read, behind]; rfl⟩

end

theorem plainFields_of_forall {depth : Nat} {fields : List (String × Value)}
    (each : ∀ field ∈ fields, Plain depth field.2) : PlainFields depth fields := by
  induction fields with
  | nil => trivial
  | cons first rest ih =>
      exact ⟨each first List.mem_cons_self,
        ih fun field later => each field (List.mem_cons_of_mem _ later)⟩

end Chart.Json

namespace Chart

theorem Value.ofText?_write {value : Value} (plain : Json.Plain nestingLimit value) :
    Value.ofText? value.write = some value := by
  obtain ⟨document, written, read⟩ := Json.exists_document value plain
  simp only [Value.ofText?, Json.ofText?_write written, Option.bind_eq_bind, Option.bind_some, read]

end Chart
