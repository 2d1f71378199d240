import Turnery.Proofs.Toml.Value

/-!
# Data in TOML read back

A document of sections is read back as the record of these sections without what is null in them:
`ofTomlText?_tomlText?`. A document is read line by line. `lines?_header`, `lines?_entry` and
`lines?_empty` say what each kind of line does to the draft; what a section does, and what all of
them do, follows by induction.
-/

namespace Turnery.Toml.Reader

open Lexical
open Datum (ofToml ofTomlEntries tomlEntries? tomlSection? tomlValue?)

/-- The name stands for itself as a key. -/
def IsBareName (name : String) : Prop :=
  name.toList ≠ [] ∧ ∀ c ∈ name.toList, isBare c = true

instance (name : String) : Decidable (IsBareName name) :=
  inferInstanceAs (Decidable (_ ∧ _))

theorem IsBareName.exists_cons {name : String} (h : IsBareName name) :
    ∃ c tail, name.toList = c :: tail ∧ isBare c = true := by
  cases hname : name.toList with
  | nil => exact absurd hname h.1
  | cons c tail => exact ⟨c, tail, rfl, h.2 c (hname ▸ List.mem_cons_self)⟩

theorem ne_of_isBare {c d : Char} (hc : isBare c = true) (hd : isBare d = false) : c ≠ d := by
  rintro rfl
  rw [hc] at hd
  cases hd

theorem skipBlanks_cons {c : Char} (hc : isBlank c = false) (rest : List Char) :
    skipBlanks (c :: rest) = c :: rest := by
  simp [skipBlanks, hc]

theorem isBlank_of_isBare {c : Char} (hc : isBare c = true) : isBlank c = false := by
  have hspace : c ≠ ' ' := ne_of_isBare hc rfl
  have htab : c ≠ '\t' := ne_of_isBare hc rfl
  simp [isBlank, hspace, htab]

theorem takeWhile_isBare {word rest : List Char} (hword : ∀ c ∈ word, isBare c = true)
    (hrest : ∀ c ∈ rest.head?, isBare c = false) : (word ++ rest).takeWhile isBare = word := by
  rw [List.takeWhile_append_of_pos hword]
  cases rest with
  | nil => simp
  | cons c rest => simp [hrest c rfl]

theorem simpleKey?_bareName {name : String} (h : IsBareName name) {rest : List Char}
    (hrest : ∀ c ∈ rest.head?, isBare c = false) :
    simpleKey? (name.toList ++ rest) = some (name, rest) := by
  obtain ⟨c, tail, hname, hc⟩ := h.exists_cons
  have hmark : c ≠ '"' := ne_of_isBare hc rfl
  have hapostrophe : c ≠ '\'' := ne_of_isBare hc rfl
  have hword := takeWhile_isBare h.2 hrest
  unfold simpleKey?
  split
  · rename_i heq
    rw [hname] at heq
    exact absurd (List.cons.inj heq).1 hmark
  · rename_i heq
    rw [hname] at heq
    exact absurd (List.cons.inj heq).1 hapostrophe
  · simp [hword, h.1]

/-- A bare name is a key of one part; the blanks behind it are passed over. -/
theorem key?_bareName {name : String} (h : IsBareName name) {rest : List Char}
    (hrest : ∀ c ∈ rest.head?, isBare c = false) (hpoint : ∀ c ∈ (skipBlanks rest).head?, c ≠ '.') :
    key? (name.toList ++ rest) = some (([], name), skipBlanks rest) := by
  obtain ⟨c, tail, hname, hc⟩ := h.exists_cons
  have hskip : skipBlanks (name.toList ++ rest) = name.toList ++ rest := by
    rw [hname]
    exact skipBlanks_cons (isBlank_of_isBare hc) (tail ++ rest)
  have hparts : keyParts? maxKeyParts (name.toList ++ rest) = some ([name], skipBlanks rest) := by
    rw [maxKeyParts, keyParts?, hskip, simpleKey?_bareName h hrest]
    simp only [Option.bind_eq_bind, Option.bind_some]
    split
    · rename_i heq
      rw [heq] at hpoint
      exact absurd rfl (hpoint '.' rfl)
    · rfl
  rw [key?, hparts]
  rfl

/-- An entry is read up to the end of its line. -/
theorem exists_assignment?_entry {name : String} (hname : IsBareName name) {d : Datum}
    {text : String} (h : tomlValue? d = some text) (hfinite : ∀ x, d = .real x → x.isFinite = true)
    (room : ℕ) (rest : List Char) :
    ∃ node, assignment? (value? (room + 1))
      (name.toList ++ ' ' :: '=' :: ' ' :: (text.toList ++ '\n' :: rest)) =
      some ((([], name), node), '\n' :: rest) ∧ ofToml node = d := by
  have hends : EndsValue ('\n' :: rest) := by
    rintro _ ⟨⟩
    decide
  obtain ⟨node, hread, hnode⟩ := exists_value?_tomlValue? h hfinite hends room
  obtain ⟨c, tail, htext, hc⟩ := exists_tomlValue?_eq_cons h hfinite
  have hkey := @key?_bareName name hname (' ' :: '=' :: ' ' :: (text.toList ++ '\n' :: rest))
    (by rintro _ ⟨⟩; rfl) (by rintro _ ⟨⟩; decide)
  have hskip : skipBlanks (' ' :: (text.toList ++ '\n' :: rest)) = text.toList ++ '\n' :: rest := by
    rw [htext]
    exact skipBlanks_cons hc (tail ++ '\n' :: rest)
  have hequals : skipBlanks (' ' :: '=' :: ' ' :: (text.toList ++ '\n' :: rest)) =
      '=' :: ' ' :: (text.toList ++ '\n' :: rest) := rfl
  have hend : skipBlanks ('\n' :: rest) = '\n' :: rest := skipBlanks_cons rfl rest
  refine ⟨node, ?_, hnode⟩
  rw [assignment?, hkey, hequals]
  simp only [Option.bind_eq_bind, Option.bind_some, expect?_self, hskip, hread, hend]

theorem lookup_eq_none {name : String} {entries : Entries} (h : name ∉ entries.map Prod.fst) :
    entries.lookup name = none := by
  refine List.lookup_eq_none_iff.2 fun entry hentry => ?_
  rw [bne_iff_ne]
  rintro rfl
  exact h (List.mem_map_of_mem hentry)

/-- A line that is no header, no comment and not empty holds an entry. -/
theorem line?_assignment {draft : Draft} {c : Char} (hc : isBare c = true) {tail rest : List Char}
    {name : String} {node : Node}
    (hread : assignment? (value? maxDepth) (c :: tail) = some ((([], name), node), '\n' :: rest))
    (hnew : name ∉ draft.current.map Prod.fst) :
    line? draft (c :: tail) = some ({ draft with current := draft.current ++ [(name, node)] },
      rest) := by
  have hheader : c ≠ '[' := ne_of_isBare hc rfl
  have hcomment : c ≠ '#' := ne_of_isBare hc rfl
  have hfeed : c ≠ '\n' := ne_of_isBare hc rfl
  have hreturn : c ≠ '\r' := ne_of_isBare hc rfl
  have hend : lineEnd? ('\n' :: rest) = some rest := rfl
  unfold line?
  split
  · rename_i heq
    exact absurd (List.cons.inj heq).1 hheader
  · rename_i heq
    exact absurd (List.cons.inj heq).1 hcomment
  · rename_i heq
    exact absurd (List.cons.inj heq).1 hfeed
  · rename_i heq
    exact absurd (List.cons.inj heq).1 hreturn
  · rw [hread]
    simp only [hend, Draft.add?, Entries.insertAt_new node (lookup_eq_none hnew),
      Option.bind_eq_bind, Option.bind_some, Option.map_some]

/-- A header opens the table of its name, which must be new. -/
theorem line?_header {draft : Draft} {root : Entries} (hfinish : draft.finish? = some root)
    {name : String} (hname : IsBareName name) (hnew : name ∉ root.map Prod.fst) (rest : List Char) :
    line? draft ('[' :: (name.toList ++ ']' :: '\n' :: rest)) =
      some (⟨root, [name], false, []⟩, rest) := by
  have hkey :=
    @key?_bareName name hname (']' :: '\n' :: rest) (by rintro _ ⟨⟩; rfl) (by rintro _ ⟨⟩; decide)
  obtain ⟨c, tail, htext, hc⟩ := hname.exists_cons
  have hopen : draft.openTable? ([] ++ [name]) = some ⟨root, [name], false, []⟩ := by
    have htake : Draft.takeOut name .header root = some (root, []) := by
      rw [Draft.takeOut, lookup_eq_none hnew]
    rw [Draft.openTable?, hfinish]
    simp only [Draft.split, Entries.updateAt, List.nil_append, List.dropLast_singleton,
      List.getLast?_singleton, Option.getD_some, htake, Option.bind_eq_bind, Option.bind_some]
  have hend : lineEnd? ('\n' :: rest) = some rest := rfl
  have hbracket : c ≠ '[' := ne_of_isBare hc rfl
  have hsingle : ∀ tail, name.toList ++ ']' :: '\n' :: rest ≠ '[' :: tail := by
    intro tail heq
    rw [htext] at heq
    exact hbracket (List.cons.inj heq).1
  rw [line?, header?.eq_2 _ _ hsingle, hkey, skipBlanks_cons rfl]
  simp only [Option.bind_eq_bind, Option.bind_some, expect?_self, hend, hopen]

/-- From the start of one line on, the reader goes on from another draft at the start of another
line. -/
def Reads (draft : Draft) (text : List Char) (draft' : Draft) (rest : List Char) : Prop :=
  ∀ fuel, text.length < fuel → ∃ fuel', rest.length < fuel' ∧
    lines? fuel draft text = lines? fuel' draft' rest

theorem Reads.refl (draft : Draft) (text : List Char) : Reads draft text draft text :=
  fun fuel hfuel => ⟨fuel, hfuel, rfl⟩

theorem Reads.trans {draft draft' draft'' : Draft} {text text' text'' : List Char}
    (h : Reads draft text draft' text') (h' : Reads draft' text' draft'' text'') :
    Reads draft text draft'' text'' := by
  intro fuel hfuel
  obtain ⟨fuel', hfuel', hfirst⟩ := h fuel hfuel
  obtain ⟨fuel'', hfuel'', hsecond⟩ := h' fuel' hfuel'
  exact ⟨fuel'', hfuel'', hfirst.trans hsecond⟩

theorem Reads.line {draft draft' : Draft} {c : Char} {tail rest : List Char}
    (hc : isBlank c = false) (hline : line? draft (c :: tail) = some (draft', rest))
    (hshorter : rest.length ≤ tail.length) :
    Reads draft (c :: tail) draft' rest := by
  intro fuel hfuel
  obtain ⟨fuel, rfl⟩ := Nat.exists_eq_add_one.2 (Nat.zero_lt_of_lt hfuel)
  refine ⟨fuel, by rw [List.length_cons] at hfuel; omega, ?_⟩
  rw [lines?, skipBlanks_cons hc]
  simp only [hline, Option.bind_eq_bind, Option.bind_some]

theorem reads_empty (draft : Draft) (rest : List Char) : Reads draft ('\n' :: rest) draft rest :=
  .line rfl rfl (Nat.le_refl _)

/-- A line with an entry adds it to the current table. -/
theorem exists_reads_entry {draft : Draft} {name : String} (hname : IsBareName name)
    (hnew : name ∉ draft.current.map Prod.fst) {d : Datum} {text : String}
    (h : tomlValue? d = some text) (hfinite : ∀ x, d = .real x → x.isFinite = true)
    (rest : List Char) :
    ∃ node, Reads draft (name.toList ++ ' ' :: '=' :: ' ' :: (text.toList ++ '\n' :: rest))
      { draft with current := draft.current ++ [(name, node)] } rest ∧ ofToml node = d := by
  obtain ⟨node, hread, hnode⟩ := exists_assignment?_entry hname h hfinite 78 rest
  obtain ⟨c, tail, htext, hc⟩ := hname.exists_cons
  refine ⟨node, ?_, hnode⟩
  rw [htext, List.cons_append] at hread ⊢
  exact .line (isBlank_of_isBare hc) (line?_assignment hc hread hnew) (by simp; omega)

/-- The header of a section puts away the section before it. -/
theorem reads_header {draft : Draft} {root : Entries} (hfinish : draft.finish? = some root)
    {name : String} (hname : IsBareName name) (hnew : name ∉ root.map Prod.fst) (rest : List Char) :
    Reads draft ('[' :: (name.toList ++ ']' :: '\n' :: rest)) ⟨root, [name], false, []⟩ rest :=
  .line rfl (line?_header hfinish hname hnew rest) (by simp; omega)

theorem finish?_section {root : Entries} {name : String} (hnew : name ∉ root.map Prod.fst)
    (entries : Entries) :
    Draft.finish? ⟨root, [name], false, entries⟩ =
      some (root ++ [(name, .table .header entries)]) := by
  have hplace : Draft.place ⟨root, [name], false, entries⟩ name .header root =
      some (root ++ [(name, .table .header entries)], ()) := by
    rw [Draft.place, lookup_eq_none hnew]
    rfl
  rw [Draft.finish?]
  simp only [List.isEmpty_cons, Bool.false_eq_true, if_false, Draft.split, Entries.updateAt,
    List.dropLast_singleton, List.getLast?_singleton, Option.getD_some, hplace, Option.map_some]

theorem lines?_nil {draft : Draft} {fuel : ℕ} (hfuel : 0 < fuel) :
    lines? fuel draft [] = some draft := by
  obtain ⟨fuel, rfl⟩ := Nat.exists_eq_add_one.2 hfuel
  rfl

end Turnery.Toml.Reader

namespace Turnery.Datum

open Toml (Entries)
open Toml.Reader

/-- The name of a member; a name that cannot be read is empty. -/
def memberName (m : Option String × Datum) : String :=
  m.1.getD ""

/-- The names of members can be written as keys, each once. -/
structure AreNamed (members : List (Option String × Datum)) : Prop where
  isBareName : ∀ m ∈ members, IsBareName (memberName m)
  nodup : (members.map memberName).Nodup

theorem AreNamed.tail {m : Option String × Datum} {members : List (Option String × Datum)}
    (h : AreNamed (m :: members)) : AreNamed members where
  isBareName m' hm' := h.isBareName m' (List.mem_cons_of_mem m hm')
  nodup := (List.nodup_cons.1 h.nodup).2

/-- The first name does not come again. -/
theorem AreNamed.head_ne {m : Option String × Datum} {members : List (Option String × Datum)}
    (h : AreNamed (m :: members)) {m' : Option String × Datum} (hm' : m' ∈ members) :
    memberName m' ≠ memberName m := by
  intro heq
  exact (List.nodup_cons.1 h.nodup).1 (heq ▸ List.mem_map_of_mem hm')

theorem fst_eq_some_memberName {m : Option String × Datum} (h : IsBareName (memberName m)) :
    m.1 = some (memberName m) := by
  obtain ⟨key, d⟩ := m
  cases key with
  | none => exact absurd rfl h.1
  | some name => rfl

/-- The names are still free in a table. -/
def AreNew (members : List (Option String × Datum)) (entries : Entries) : Prop :=
  ∀ m ∈ members, memberName m ∉ entries.map Prod.fst

theorem AreNew.append {m : Option String × Datum} {members : List (Option String × Datum)}
    {entries : Entries} (h : AreNew (m :: members) entries) (hnamed : AreNamed (m :: members))
    (node : Toml.Node) :
    AreNew members (entries ++ [(memberName m, node)]) := by
  intro m' hm' hmem
  rw [List.map_append, List.mem_append] at hmem
  rcases hmem with hmem | hmem
  · exact h m' (List.mem_cons_of_mem m hm') hmem
  · exact hnamed.head_ne hm' (List.mem_singleton.1 hmem)

def isNull : Datum → Bool
  | null => true
  | _ => false

/-- The members that a section can hold. -/
def present (members : List (Option String × Datum)) : List (Option String × Datum) :=
  members.filter fun m => !isNull m.2

theorem ofTomlEntries_cons (key : String) (node : Toml.Node) (entries : Entries) :
    ofTomlEntries ([(key, node)] ++ entries) = (some key, ofToml node) :: ofTomlEntries entries :=
  rfl

theorem tomlEntries?_null {m : Option String × Datum} (hnull : isNull m.2 = true)
    (members : List (Option String × Datum)) :
    tomlEntries? (m :: members) = tomlEntries? members := by
  obtain ⟨key, value⟩ := m
  cases value with
  | null => rfl
  | _ => cases hnull

theorem tomlEntries?_cons {m : Option String × Datum} {members : List (Option String × Datum)}
    (hnull : isNull m.2 = false) {text : String} (h : tomlEntries? (m :: members) = some text) :
    ∃ v others, tomlValue? m.2 = some v ∧ tomlEntries? members = some others ∧
      text = memberName m ++ " = " ++ v ++ "\n" ++ others := by
  obtain ⟨key, value⟩ := m
  rw [tomlEntries?.eq_3 _ _ _ (by rintro rfl; cases hnull)] at h
  obtain ⟨v, hv, h⟩ := Option.bind_eq_some_iff.1 h
  obtain ⟨others, hothers, h⟩ := Option.bind_eq_some_iff.1 h
  exact ⟨v, others, hv, hothers, (Option.some.inj h).symm⟩

/-- The entries of a section are added one by one. -/
theorem exists_reads_entries {members : List (Option String × Datum)} {text : String}
    (h : tomlEntries? members = some text) (hnamed : AreNamed members)
    (hfinite : ∀ m ∈ members, ∀ x, m.2 = .real x → x.isFinite = true) (draft : Draft)
    (hnew : AreNew members draft.current) (rest : List Char) :
    ∃ entries, Reads draft (text.toList ++ rest)
      { draft with current := draft.current ++ entries } rest ∧
      ofTomlEntries entries = present members := by
  induction members generalizing draft text with
  | nil =>
    obtain rfl := Option.some.inj h
    exact ⟨[], by simpa using Reads.refl draft rest, rfl⟩
  | cons m members ih =>
    have hothers : ∀ m' ∈ members, ∀ x, m'.2 = .real x → x.isFinite = true :=
      fun m' hm' => hfinite m' (List.mem_cons_of_mem m hm')
    cases hnull : isNull m.2 with
    | true =>
      rw [tomlEntries?_null hnull] at h
      obtain ⟨entries, hreads, hentries⟩ := ih h hnamed.tail hothers draft
        fun m' hm' => hnew m' (List.mem_cons_of_mem m hm')
      exact ⟨entries, hreads, by simp [hentries, present, hnull]⟩
    | false =>
      obtain ⟨v, others, hv, htext, rfl⟩ := tomlEntries?_cons hnull h
      have hname := hnamed.isBareName m List.mem_cons_self
      obtain ⟨node, hfirst, hnode⟩ := exists_reads_entry hname (hnew m List.mem_cons_self) hv
        (hfinite m List.mem_cons_self) (others.toList ++ rest)
      obtain ⟨entries, hreads, hentries⟩ := ih htext hnamed.tail hothers
        { draft with current := draft.current ++ [(memberName m, node)] } (hnew.append hnamed node)
      refine ⟨[(memberName m, node)] ++ entries, ?_, ?_⟩
      · have := hfirst.trans hreads
        simpa using this
      · rw [ofTomlEntries_cons, hentries, hnode, ← fst_eq_some_memberName hname]
        simp [present, hnull]

/-- The datum is a section: a record of named members, the doubles among them finite. -/
def IsSection : Datum → Prop
  | record members => AreNamed members ∧ ∀ m ∈ members, ∀ x, m.2 = .real x → x.isFinite = true
  | _ => False

def withoutNulls : Datum → Datum
  | record members => record (present members)
  | d => d

/-- A section is read into a table of its own. -/
theorem exists_reads_section {name : String} {d : Datum} {text : String}
    (h : tomlSection? name d = some text) (hd : IsSection d) (hname : IsBareName name)
    {draft : Draft} {root : Entries} (hfinish : draft.finish? = some root)
    (hnew : name ∉ root.map Prod.fst) (rest : List Char) :
    ∃ entries, Reads draft (text.toList ++ rest) ⟨root, [name], false, entries⟩ rest ∧
      record (ofTomlEntries entries) = withoutNulls d := by
  cases d with
  | record members =>
    obtain ⟨hnamed, hfinite⟩ := hd
    obtain ⟨body, hbody, rfl⟩ := Option.map_eq_some_iff.1 h
    obtain ⟨entries, hreads, hentries⟩ :=
      exists_reads_entries hbody hnamed hfinite ⟨root, [name], false, []⟩
        (fun m _ => List.not_mem_nil) rest
    refine ⟨entries, ?_, by rw [hentries, withoutNulls]⟩
    have := (reads_header hfinish hname hnew (body.toList ++ rest)).trans hreads
    simpa using this
  | _ => cases h

/-- TOML can hold the datum as a document of sections. -/
def InToml : Datum → Prop
  | record sections => AreNamed sections ∧ ∀ m ∈ sections, IsSection m.2
  | _ => False

/-- The sections are read one by one; an empty line stands between two. -/
theorem exists_reads_sections {sections : List (Option String × Datum)} {texts : List String}
    (h : (sections.mapM fun (name, value) => tomlSection? (name.getD "") value) = some texts)
    (hnamed : AreNamed sections) (hsections : ∀ m ∈ sections, IsSection m.2) {draft : Draft}
    {root : Entries} (hfinish : draft.finish? = some root) (hnew : AreNew sections root) :
    ∃ draft' tables, Reads draft ("\n".intercalate texts).toList draft' [] ∧
      draft'.finish? = some (root ++ tables) ∧
      ofTomlEntries tables = sections.map fun m => (m.1, withoutNulls m.2) := by
  induction sections generalizing texts draft root with
  | nil =>
    obtain rfl := Option.some.inj h
    exact ⟨draft, [], .refl draft [], by rw [hfinish, List.append_nil], rfl⟩
  | cons m sections ih =>
    rw [List.mapM_cons] at h
    obtain ⟨text, htext, h⟩ := Option.bind_eq_some_iff.1 h
    obtain ⟨others, hothers, h⟩ := Option.bind_eq_some_iff.1 h
    obtain rfl := Option.some.inj h
    have htext : tomlSection? (memberName m) m.2 = some text := htext
    have hname := hnamed.isBareName m List.mem_cons_self
    have hfree := hnew m List.mem_cons_self
    have hfirst := exists_reads_section htext (hsections m List.mem_cons_self) hname hfinish hfree
    have hkey : m.1 = some (memberName m) := fst_eq_some_memberName hname
    cases sections with
    | nil =>
      obtain rfl := Option.some.inj hothers
      obtain ⟨entries, hreads, hentries⟩ := hfirst []
      refine ⟨_, [(memberName m, .table .header entries)], ?_, finish?_section hfree entries, ?_⟩
      · simpa using hreads
      · simp [ofTomlEntries, ofToml, hentries, hkey]
    | cons next sections =>
      obtain ⟨nextText, rest, rfl⟩ : ∃ nextText rest, others = nextText :: rest := by
        rw [List.mapM_cons] at hothers
        obtain ⟨nextText, -, hothers⟩ := Option.bind_eq_some_iff.1 hothers
        obtain ⟨rest, -, hothers⟩ := Option.bind_eq_some_iff.1 hothers
        exact ⟨nextText, rest, (Option.some.inj hothers).symm⟩
      obtain ⟨entries, hreads, hentries⟩ :=
        hfirst ('\n' :: ("\n".intercalate (nextText :: rest)).toList)
      obtain ⟨draft', tables, hothers, hfinish', htables⟩ := ih hothers hnamed.tail
        (fun m' hm' => hsections m' (List.mem_cons_of_mem m hm')) (finish?_section hfree entries)
        (hnew.append hnamed _)
      refine ⟨draft', (memberName m, .table .header entries) :: tables,
        ?_, by simpa using hfinish', ?_⟩
      · rw [String.intercalate_cons_cons]
        have := (hreads.trans (reads_empty _ _)).trans hothers
        simpa using this
      · rw [ofTomlEntries, htables, ofToml, hentries, ← hkey]
        rfl

/-- A document starts with the header of a section, if with anything. -/
theorem head_intercalate {sections : List (Option String × Datum)} {texts : List String}
    (h : (sections.mapM fun (name, value) => tomlSection? (name.getD "") value) = some texts) :
    ∀ c ∈ ("\n".intercalate texts).toList.head?, c = '[' := by
  cases sections with
  | nil =>
    obtain rfl := Option.some.inj h
    exact nofun
  | cons m sections =>
    rw [List.mapM_cons] at h
    obtain ⟨text, htext, h⟩ := Option.bind_eq_some_iff.1 h
    obtain ⟨others, -, h⟩ := Option.bind_eq_some_iff.1 h
    obtain rfl := Option.some.inj h
    have hfront : ∃ tail, text.toList = '[' :: tail := by
      obtain ⟨key, value⟩ := m
      cases value with
      | record members =>
        obtain ⟨body, -, rfl⟩ := Option.map_eq_some_iff.1 htext
        exact ⟨(key.getD "").toList ++ ']' :: '\n' :: body.toList, by simp⟩
      | _ => cases htext
    obtain ⟨tail, htail⟩ := hfront
    cases others with
    | nil =>
      rw [String.intercalate_singleton, htail]
      rintro _ ⟨⟩
      rfl
    | cons next others =>
      rw [String.intercalate_cons_cons, String.toList_append, String.toList_append, htail]
      rintro _ ⟨⟩
      rfl

/-- A document is read back as what was written, apart from what is null. -/
theorem ofTomlText?_tomlText? {sections : List (Option String × Datum)} {text : String}
    (h : InToml (record sections)) (htext : tomlText? (record sections) = some text) :
    ofTomlText? text = some (record (sections.map fun m => (m.1, withoutNulls m.2))) := by
  obtain ⟨texts, htexts, htext⟩ := Option.bind_eq_some_iff.1 htext
  obtain rfl := Option.some.inj htext
  obtain ⟨draft, tables, hreads, hfinish, htables⟩ := exists_reads_sections htexts h.1 h.2
    (show Draft.start.finish? = some [] from rfl) fun m _ => List.not_mem_nil
  have hmark : skipByteOrderMark ("\n".intercalate texts).toList =
      ("\n".intercalate texts).toList := by
    have hfront := head_intercalate htexts
    unfold skipByteOrderMark
    split
    · rename_i heq
      rw [heq] at hfront
      exact absurd (hfront _ rfl) (by decide)
    · rfl
  obtain ⟨fuel, hfuel, hlines⟩ := hreads _ (Nat.lt_succ_self _)
  rw [ofTomlText?, parse?, hmark]
  simp only [Nat.succ_eq_add_one] at hlines
  simp only [hlines, lines?_nil hfuel, hfinish, Option.bind_eq_bind, Option.bind_some,
    Option.map_some, List.nil_append, htables]

end Turnery.Datum
