import FrameIndex.Proofs.Report.Json
import FrameIndex.Report

/-!
# Rows as lines of JSON

Every row is written on a line of its own (`ReportRow.exists_line`), and its members are found in
the line by their names, so the line determines the row (`ReportRow.jsonLine_injective`). Hence the
text of a report determines all its rows (`ReportFormat.json_loses_nothing`).
-/

namespace FrameIndex

namespace Json

def member? : Json → String → Option Json
  | .object members, name => members.lookup name
  | _, _ => none

theorem orNull_inj {α : Type} {f : α → Json} (hf : Function.Injective f) (hnull : ∀ a, f a ≠ null)
    {a b : Option α} (h : orNull f a = orNull f b) : a = b := by
  cases a with
  | none =>
    cases b with
    | none => rfl
    | some b => exact absurd h.symm (hnull b)
  | some a =>
    cases b with
    | none => exact absurd h (hnull a)
    | some b => exact congrArg some (hf h)

end Json

/-! ## What a row is made of -/

theorem NamedHeader.toJson_injective : Function.Injective NamedHeader.toJson := by
  rintro ⟨⟩ ⟨⟩ h
  simp_all [toJson]

theorem HeaderMatch.toJson_injective : Function.Injective HeaderMatch.toJson := by
  rintro ⟨⟩ ⟨⟩ h
  simp_all [toJson]

theorem FragmentNote.toJson_injective : Function.Injective FragmentNote.toJson := by
  rintro ⟨⟩ ⟨⟩ h
  simp_all [toJson]

theorem ByteRange.toJson_injective : Function.Injective ByteRange.toJson := by
  rintro ⟨⟩ ⟨⟩ h
  simp_all [toJson]

theorem Layout.name_injective : Function.Injective Layout.name := by
  intro a b h
  cases a <;> cases b <;> simp_all [name]

namespace ReportRow

/-- The selected occurrences as JSON. They are left out if there are none. -/
def selectedJson (selected : List HeaderMatch) : Option Json :=
  if selected.isEmpty then none else some (.array (selected.map HeaderMatch.toJson))

theorem selectedJson_injective : Function.Injective selectedJson := by
  intro a b h
  cases a with
  | nil =>
    cases b with
    | nil => rfl
    | cons b bs => cases h
  | cons a as =>
    cases b with
    | nil => cases h
    | cons b bs =>
      have hitems := Json.array.inj (Option.some.inj h)
      exact List.map_injective_iff.2 HeaderMatch.toJson_injective hitems

theorem members_toJson (r : ReportRow) :
    ["frame", "timestamp", "descriptor", "caplen", "wirelen", "headers", "payload", "fragment",
      "selected"].map r.toJson.member? =
    [some (.number r.frame), some (Json.orNull Json.text r.timestamp), some (.text r.layout.name),
      some (.number r.captureLength), some (.number r.wireLength),
      some (.array (r.headers.map NamedHeader.toJson)),
      some (Json.orNull ByteRange.toJson r.payload), r.fragment.map FragmentNote.toJson,
      selectedJson r.selected] := by
  unfold selectedJson
  cases hfragment : r.fragment <;> cases hselected : r.selected.isEmpty
  all_goals simp [Json.member?, toJson, hfragment, hselected, List.lookup_cons]

theorem toJson_injective : Function.Injective toJson := by
  intro r r' h
  have hmembers := members_toJson r
  rw [h, members_toJson r'] at hmembers
  simp only [List.cons.injEq, Option.some.injEq, Json.number.injEq, Json.text.injEq,
    Json.array.injEq, and_true] at hmembers
  obtain ⟨hframe, htimestamp, hlayout, hcapture, hwire, hheaders, hpayload, hfragment, hselected⟩ :=
    hmembers
  have htimestamp := Json.orNull_inj (fun _ _ => Json.text.inj) nofun htimestamp
  have hlayout := Layout.name_injective hlayout
  have hheaders := List.map_injective_iff.2 NamedHeader.toJson_injective hheaders
  have hpayload := Json.orNull_inj ByteRange.toJson_injective nofun hpayload
  have hfragment := Option.map_injective FragmentNote.toJson_injective hfragment
  have hselected := selectedJson_injective hselected
  cases r
  cases r'
  simp_all

theorem chars_ne_break (r : ReportRow) : ∀ c ∈ r.toJson.chars, (c != '\n') = true := by
  intro c hc
  rw [bne_iff_ne]
  rintro rfl
  exact absurd (r.toJson.printed _ hc) (by decide)

theorem exists_line (r : ReportRow) :
    ∃ line : List Char, r.jsonLine.toList = line ++ ['\n'] ∧ '\n' ∉ line := by
  refine ⟨r.toJson.chars, String.toList_ofList, fun hbreak => ?_⟩
  exact absurd (r.chars_ne_break _ hbreak) (by decide)

theorem jsonLine_injective : Function.Injective jsonLine := by
  intro r r' h
  have hchars : r.toJson.chars ++ ['\n'] = r'.toJson.chars ++ ['\n'] := String.ofList_injective h
  exact toJson_injective (Json.chars_injective (List.append_cancel_right hchars))

end ReportRow

namespace ReportFormat

theorem toList_write_cons (row : ReportRow) (rows : List ReportRow) :
    (json.write (row :: rows)).toList = row.toJson.chars ++ '\n' :: (json.write rows).toList := by
  simp [write, ReportRow.jsonLine]

theorem write_json_cancel {row row' : ReportRow} {rows rows' : List ReportRow}
    (h : json.write (row :: rows) = json.write (row' :: rows')) :
    row = row' ∧ json.write rows = json.write rows' := by
  have htext := congrArg String.toList h
  rw [toList_write_cons, toList_write_cons] at htext
  have hstops (rest : List Char) : Json.Stops (· != '\n') ('\n' :: rest) := by
    rintro c ⟨⟩
    rfl
  obtain ⟨hline, hrest⟩ :=
    Json.word_cancel row.chars_ne_break row'.chars_ne_break (hstops _) (hstops _) htext
  exact ⟨ReportRow.toJson_injective (Json.chars_injective hline),
    String.toList_inj.1 (List.cons.inj hrest).2⟩

theorem write_json_cons_ne (row : ReportRow) (rows : List ReportRow) :
    json.write (row :: rows) ≠ json.write [] := by
  intro h
  have htext := congrArg String.toList h
  rw [toList_write_cons] at htext
  simp [write] at htext

theorem write_json_injective : Function.Injective json.write := by
  intro rows
  induction rows with
  | nil =>
    intro rows' h
    cases rows' with
    | nil => rfl
    | cons row' rows' => exact absurd h.symm (write_json_cons_ne row' rows')
  | cons row rows ih =>
    intro rows' h
    cases rows' with
    | nil => exact absurd h (write_json_cons_ne row rows)
    | cons row' rows' =>
      obtain ⟨rfl, hrest⟩ := write_json_cancel h
      rw [ih hrest]

/-- **A report in JSON loses nothing.** Every row is written on one line, which ends with the only
line break in it. Rows with the same line are the same, and so are lists of rows whose lines make up
the same text. -/
theorem json_loses_nothing :
    (∀ row : ReportRow, ∃ line : List Char,
      row.jsonLine.toList = line ++ ['\n'] ∧ '\n' ∉ line) ∧
    (∀ row row' : ReportRow, row.jsonLine = row'.jsonLine → row = row') ∧
    (∀ rows rows' : List ReportRow, json.write rows = json.write rows' → rows = rows') := by
  refine ⟨ReportRow.exists_line, fun row row' h => ?_, fun rows rows' h => ?_⟩
  · exact ReportRow.jsonLine_injective h
  · exact write_json_injective h

end ReportFormat

end FrameIndex
