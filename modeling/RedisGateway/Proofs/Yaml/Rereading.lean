import RedisGateway.Proofs.Yaml.Reading
import RedisGateway.Proofs.Yaml.Writing
import RedisGateway.Settings.Coercion

/-!
Reading back what was written: the scalar of a leaf has the value of the leaf where that one is
reread (`says_value`), and of no other text is it the text (`rereads_of_text`).
-/

namespace RedisGateway.Yaml

open Writer (Pen styleOf)

/-- The value that a leaf stands for. -/
def Leaf.value : Leaf → Value
  | .flag b => .flag b
  | .whole n => .whole n
  | .text s => .text s

/-- Whether a text behind its key is read back as a text, and as the same one. -/
def rereads (indent : Nat) (p : Pen) (cs : List Char) : Bool :=
  keepsText indent p cs && (styleOf cs != .plain || Tag.ofPlain cs == .str)

/-- A leaf that is read back as it was written. -/
def Leaf.Rereads (indent : Nat) (p : Pen) : Leaf → Prop
  | .flag _ => True
  | .whole n => (toString n.natAbs).length ≤ Fault.maxDigits
  | .text s => rereads indent p s.toList = true

section Scalars

variable {indent : Nat} {p : Pen} {l : Leaf} {x : Said}

theorem value_flag (b : Bool) :
    Said.value ⟨(if b then "true" else "false").toList, true⟩ = .ok (.flag b) := by
  cases b <;> rfl

theorem value_whole {n : Int} (hn : (toString n.natAbs).length ≤ Fault.maxDigits) :
    Said.value ⟨(toString n).toList, true⟩ = .ok (.whole n) := by
  have htag : Said.tag ⟨(toString n).toList, true⟩ = .int := ofPlain_whole n
  rw [Said.value, htag]
  change (integerOf (Text.points (toString n))).map Value.whole = _
  rw [integerOf_whole hn]
  rfl

/-- The value of a leaf that is read back is its own. -/
theorem says_value (h : Says indent p l x) (hl : l.Rereads indent p) : x.value = .ok l.value := by
  cases l with
  | flag b =>
    obtain rfl := h
    exact value_flag b
  | whole n =>
    obtain rfl := h
    exact value_whole hl
  | text s =>
    obtain ⟨hplain, hcontent⟩ := h
    simp only [Leaf.Rereads, rereads, Bool.and_eq_true] at hl
    obtain ⟨hkeeps, htag⟩ := hl
    have hsame := hcontent.mpr hkeeps
    have hstr : x.tag = .str := by
      rw [Said.tag, hplain, hsame]
      cases hstyle : styleOf s.toList <;> simp_all
    rw [Said.value_text hstr, hsame, String.ofList_toList]
    rfl

/-- A plain scalar never stands for bytes. -/
theorem ofPlain_ne_binary (cs : List Char) : Tag.ofPlain cs ≠ .binary := by
  have hall : ∀ f ∈ Tag.forms, f.2 ≠ .binary := by decide
  rw [Tag.ofPlain]
  cases hfind : Tag.forms.find? fun f => Tag.hasForm f.1 cs with
  | none => simp
  | some f => exact hall f (List.mem_of_find?_eq_some hfind)

/-- No text is made of a plain scalar that has the form of another value. -/
theorem toText_other {v : Value} {cs : List Char} {s : String} (htag : Tag.ofPlain cs ≠ .str)
    (hv : Said.value ⟨cs, true⟩ = .ok v) : Settings.toText v ≠ .ok s := by
  have hbinary := ofPlain_ne_binary cs
  rw [Said.value, show Said.tag ⟨cs, true⟩ = Tag.ofPlain cs from rfl] at hv
  intro hs
  cases hother : Tag.ofPlain cs with
  | str => exact htag hother
  | binary => exact hbinary hother
  | bool =>
    simp only [hother, Tag.atom?, boolValue] at hv
    split at hv <;> cases hv
    cases hs
  | null =>
    simp only [hother, Tag.atom?] at hv
    cases hv
    cases hs
  | int =>
    simp only [hother, Tag.atom?] at hv
    cases hn : integerOf (Content.ofList cs).points <;> simp only [hn, Except.map] at hv <;>
      cases hv
    cases hs
  | float =>
    simp only [hother, Tag.atom?] at hv
    cases hn : realOf (Content.ofList cs).points <;> simp only [hn, Except.map] at hv <;>
      cases hv
    cases hs
  | timestamp =>
    simp only [hother, Tag.atom?, Moment.value] at hv
    split at hv
    · cases hv
    · split at hv <;> cases hv
      cases hs
  | _ => simp [hother, Tag.atom?] at hv

/-- A text is read back as itself only where it is reread. -/
theorem rereads_of_text {s : String} {v : Value} (h : Says indent p (.text s) x)
    (hv : x.value = .ok v) (hs : Settings.toText v = .ok s) :
    rereads indent p s.toList = true := by
  obtain ⟨hplain, hcontent⟩ := h
  have hstr : x.tag = .str := by
    obtain ⟨content, plain⟩ := x
    cases plain with
    | false => rfl
    | true => exact Decidable.byContradiction fun hother => toText_other hother hv hs
  have hsame : x.content = s.toList := by
    rw [Said.value_text hstr] at hv
    obtain rfl := Except.ok.inj hv
    obtain rfl := Except.ok.inj hs
    simp
  rw [rereads, hcontent.mp hsame, Bool.true_and]
  rw [Said.tag, hplain, hsame] at hstr
  cases hstyle : styleOf s.toList <;> simp_all

end Scalars

/-! ## Records -/

/-- The keys of an entry. -/
def entryKeys : String × Entry → List String
  | (k, .leaf _) => [k]
  | (k, .group ls) => k :: ls.map (·.1)

/-- An entry that is read back as it was written. -/
def EntryRereads : String × Entry → Prop
  | (k, .leaf l) => l.Rereads 2 (Writer.putKey 0 k)
  | (_, .group ls) => ∀ l ∈ ls, l.2.Rereads 4 (Writer.putKey 2 l.1)

/-- The value of an entry under its key. -/
def entryValue : String × Entry → Value × Value
  | (k, .leaf l) => (.text k, l.value)
  | (k, .group ls) => (.text k, .recordOf (ls.map fun l => (.text l.1, l.2.value)))

theorem keys_leaves {indent : Nat} {ls : List (String × Leaf)} {as : List (List Char × Said)}
    (h : List.Forall₂ (SaysLeaf indent) ls as) : as.map (·.1) = ls.map (·.1.toList) := by
  induction h with
  | nil => rfl
  | cons hsays _ ih => rw [List.map_cons, List.map_cons, ih, hsays.1]

theorem keys_entry {e : String × Entry} {b : List Char × Part} (h : SaysEntry e b) :
    b.1 :: b.2.keys = (entryKeys e).map String.toList := by
  cases h with
  | leaf _ => rfl
  | group hleaves =>
    rw [Part.keys, keys_leaves hleaves, entryKeys, List.map_cons, List.map_map]
    rfl

theorem textKeys_written {es : List (String × Entry)} {bs : List (List Char × Part)}
    (h : List.Forall₂ SaysEntry es bs) (hkeys : ∀ k ∈ es.flatMap entryKeys, IsTextKey k.toList) :
    TextKeys bs := by
  induction h with
  | nil => exact nofun
  | cons hsays _ ih =>
    rw [List.flatMap_cons, List.forall_mem_append] at hkeys
    refine List.forall_mem_cons.mpr ⟨?_, ih hkeys.2⟩
    rw [keys_entry hsays]
    exact List.forall_mem_map.mpr hkeys.1

theorem says_leaves {ls : List (String × Leaf)} {as : List (List Char × Said)}
    (h : List.Forall₂ (SaysLeaf 2) ls as)
    (hls : ∀ l ∈ ls, l.2.Rereads 4 (Writer.putKey 2 l.1)) :
    (∀ a ∈ as, a.2.value = .ok a.2.worth) ∧
      leavesEntries as = ls.map fun l => (.text l.1, l.2.value) := by
  induction h with
  | nil => exact ⟨nofun, rfl⟩
  | @cons l a ls as hsays _ ih =>
    obtain ⟨hvalues, hentries⟩ := ih fun x hx => hls x (List.mem_cons_of_mem _ hx)
    have hvalue := says_value hsays.2 (hls l List.mem_cons_self)
    have hworth := Said.value_eq hvalue
    refine ⟨List.forall_mem_cons.mpr ⟨hworth ▸ hvalue, hvalues⟩, ?_⟩
    simp only [leavesEntries, List.map_cons] at hentries ⊢
    rw [hentries, hworth, hsays.1, String.ofList_toList]

theorem says_entry {e : String × Entry} {b : List Char × Part} (h : SaysEntry e b)
    (he : EntryRereads e) :
    (∀ x ∈ b.2.scalars, x.value = .ok x.worth) ∧
      (.text (String.ofList b.1), b.2.worth) = entryValue e := by
  cases h with
  | @leaf k l x hsays =>
    have hvalue := says_value hsays.2 he
    have hworth := Said.value_eq hvalue
    refine ⟨by simpa [Part.scalars, hworth] using hvalue, ?_⟩
    rw [Part.worth, hworth, String.ofList_toList]
    rfl
  | group hleaves =>
    obtain ⟨hvalues, hentries⟩ := says_leaves hleaves he
    refine ⟨List.forall_mem_map.mpr hvalues, ?_⟩
    rw [Part.worth, hentries, String.ofList_toList]
    rfl

theorem says_record {es : List (String × Entry)} {bs : List (List Char × Part)}
    (h : List.Forall₂ SaysEntry es bs) (hes : ∀ e ∈ es, EntryRereads e) :
    (∀ x ∈ bs.flatMap (·.2.scalars), x.value = .ok x.worth) ∧
      bs.map (fun b => (.text (String.ofList b.1), b.2.worth)) = es.map entryValue := by
  induction h with
  | nil => exact ⟨nofun, rfl⟩
  | @cons e b es bs hsays _ ih =>
    obtain ⟨hvalues, hentries⟩ := ih fun x hx => hes x (List.mem_cons_of_mem _ hx)
    obtain ⟨hvalue, hentry⟩ := says_entry hsays (hes e List.mem_cons_self)
    rw [List.flatMap_cons, List.forall_mem_append, List.map_cons, List.map_cons, hentry, hentries]
    exact ⟨⟨hvalue, hvalues⟩, rfl⟩

section Records

variable {es : List (String × Entry)} (hkeyed : ∀ e ∈ es, IsKeyed e) (hne : es ≠ [])
  (hkeys : ∀ k ∈ es.flatMap entryKeys, IsTextKey k.toList)

include hkeyed

/-- What is written of a record may stand in a document. -/
theorem write_writable : ∀ ch ∈ (Writer.write es).toList, isWritable ch = true := by
  obtain ⟨bs, htext, -⟩ := write_record hkeyed
  exact htext.writable

include hne hkeys

/-- What is read of what was written: the values of scalars that say what the leaves are. -/
theorem read_write_entries : ∃ bs, List.Forall₂ SaysEntry es bs ∧
    ∀ v, read (Writer.write es) = .ok v ↔
      (∀ x ∈ bs.flatMap (·.2.scalars), x.value = .ok x.worth) ∧ v = recordWorth bs := by
  obtain ⟨bs, htext, hsays⟩ := write_record hkeyed
  have hnone : bs ≠ [] := by
    rintro rfl
    exact hne (List.forall₂_nil_right_iff.mp hsays)
  refine ⟨bs, hsays, fun v => ?_⟩
  rw [← read_record htext hnone (textKeys_written hsays hkeys), String.ofList_toList]

/-- A record is read back as it was written if its leaves are. -/
theorem read_write (hes : ∀ e ∈ es, EntryRereads e) :
    read (Writer.write es) = .ok (.recordOf (es.map entryValue)) := by
  obtain ⟨bs, hsays, hread⟩ := read_write_entries hkeyed hne hkeys
  obtain ⟨hvalues, hentries⟩ := says_record hsays hes
  exact (hread _).mpr ⟨hvalues, by rw [recordWorth, hentries]⟩

end Records

end RedisGateway.Yaml
