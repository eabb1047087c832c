import SkCoord.Cmdb.Store
import SkCoord.Python.Latest
import SkCoord.Python.TornLine

/-!
# The events of a directory

`CiDir.events` are the events on the files of a directory.  `readEvents` sorts them
(`readEvents_eq_ok`).  An append puts one event behind those of its file when the last line of the
file is finished, and loses it together with the unfinished line otherwise (`contentEvents_appends`).
-/

namespace SkCoord.Cmdb

open Python

/-- The events on a file. -/
def contentEvents (F : FloatText) (content : Bytes) : List Dict :=
  eventsOfText F ((decodeUtf8 content).getD [])

/-- The events on the files of a directory, in the order of the files. -/
def CiDir.events (F : FloatText) (d : CiDir) : List Dict :=
  readByName (fun p => contentEvents F p.2) (fun name => endsWith name ".jsonl") d.logs

variable {env : Env} {F : FloatText}

/-! ### Reading -/

theorem readLog_eq_ok {file : String × Bytes} {events : List Dict}
    (h : readLog env file = .ok events) : events = contentEvents env.floats file.2 := by
  obtain ⟨text, htext, h⟩ := bind_eq_ok.mp h
  have hdecode : decodeUtf8 file.2 = some text := readText_eq_ok.mp htext
  have hevents := map_of_mapM (g := id) (fun e e' he => by
    obtain ⟨-, -, he⟩ := bind_eq_ok.mp he
    exact (pure_eq_ok.mp he).symm) h
  rw [hevents, List.map_id, contentEvents, hdecode]
  rfl

/-- **Reading** puts the events of a directory in order. -/
theorem readEvents_eq_ok {dir : CmdbDir} {ciId : String} {events : List Dict}
    (h : dir.readEvents env ciId = .ok events) :
    events = ((dir.ciDir ciId).events env.floats).insertionSort fun a b => eventKey a ≤ eventKey b := by
  obtain ⟨logs, hlogs, h⟩ := bind_eq_ok.mp h
  have hmap := map_of_mapM (g := fun p : String × Bytes => contentEvents env.floats p.2)
    (fun p events hp => readLog_eq_ok hp) hlogs
  rw [sortByKey_eq_ok h, hmap, List.flatten_eq_flatMap, List.flatMap_map]
  rfl

/-! ### Appending -/

/-- The last line of a text is finished, or blank. -/
def Closed (text : List Char) : Prop := (unfinished text).dropWhile isSpace = []

instance (text : List Char) : Decidable (Closed text) :=
  inferInstanceAs (Decidable (_ = []))

/-- Behind the last line boundary of a closed text no event is read. -/
theorem eventsOfText_unfinished {text : List Char} (h : Closed text) :
    eventsOfText F (unfinished text) = [] := by
  have hblank : nonBlankLines (unfinished text) = [] := by
    by_cases hnil : unfinished text = []
    · rw [hnil]
      rfl
    · have hstrip : stripChars (unfinished text) = [] := by
        rw [stripChars, show (unfinished text).dropWhile isSpace = [] from h]
        rfl
      rw [nonBlankLines, splitlines_unbroken (fun c hc => unfinished_unbroken hc) hnil,
        List.map_singleton, hstrip]
      rfl
  rw [eventsOfText, hblank]
  rfl

/-- An event as it is read from its line. -/
def rereadEvent (F : FloatText) (e : Dict) : Dict := Json.ofPairs (Json.rereadFields F e)

/-- An event as it is written: it begins with the version. -/
def Stamped (e : Dict) : Prop := ∃ v d, e = ("schema_version", v) :: d

theorem recordText_of_stamped {e : Dict} (h : Stamped e) :
    Json.RecordText F ((Json.obj e).dumps F .spaced) := by
  obtain ⟨v, d, rfl⟩ := h
  have hkey : "schema_version".toList = 's' :: "chema_version".toList := rfl
  exact Json.recordText_dumps hkey (by decide)
    ⟨by decide, by decide, by decide, by decide, by decide⟩

theorem eventsOfText_finished (text : List Char) :
    eventsOfText F text = eventsOfText F (finished text) ++ eventsOfText F (unfinished text) := by
  unfold eventsOfText
  rw [nonBlankLines_eq_finished, List.filterMap_append]

/-- **An append** behind a text. -/
theorem eventsOfText_append {e : Dict} (he : Stamped e) (text : List Char) :
    eventsOfText F (text ++ ((Json.obj e).dumps F .spaced ++ ['\n'])) =
      eventsOfText F (finished text) ++ if Closed text then [rereadEvent F e] else [] := by
  unfold eventsOfText
  rw [nonBlankLines_append_line text (isLine_dumps F .spaced e), List.filterMap_append]
  congr 1
  by_cases hclosed : Closed text
  · rw [if_pos hclosed, show (unfinished text).dropWhile isSpace = [] from hclosed, List.nil_append,
      List.filterMap_cons, Json.loads_reread]
    rfl
  · -- the line is not blank, so it begins with a token
    obtain ⟨c, r, hr⟩ := List.exists_cons_of_ne_nil hclosed
    have hc : isSpace c = false := by
      have hhead := List.head?_dropWhile_not isSpace (unfinished text)
      rw [hr] at hhead
      exact hhead
    have hblank : Json.isBlankChar c = false := by
      by_contra hblank
      have hspace : isSpace c = true := by
        simp only [Json.isBlankChar, Bool.or_eq_true, beq_iff_eq, Bool.not_eq_false] at hblank
        rcases hblank with ((rfl | rfl) | rfl) | rfl <;> decide
      rw [hc] at hspace
      cases hspace
    rw [if_neg hclosed, List.filterMap_cons,
      Json.loads_torn (recordText_of_stamped he) ⟨c, r, hr, hblank⟩]
    rfl

/-- The line of an event. -/
def lineOf (F : FloatText) (e : Dict) : List Char := (Json.obj e).dumps F .spaced ++ ['\n']

/-- Behind a newline nothing is unfinished. -/
theorem finished_lineOf (text : List Char) (e : Dict) :
    finished (text ++ lineOf F e) = text ++ lineOf F e ∧ unfinished (text ++ lineOf F e) = [] := by
  have hreverse : (text ++ lineOf F e).reverse =
      '\n' :: (text ++ (Json.obj e).dumps F .spaced).reverse := by
    rw [lineOf, ← List.append_assoc, List.reverse_append]
    rfl
  constructor
  · rw [finished, hreverse, List.dropWhile_cons_of_neg (by decide), ← hreverse, List.reverse_reverse]
  · rw [unfinished, hreverse, List.takeWhile_cons_of_neg (by decide)]
    rfl

/-- A text that ends in a line of an event is closed. -/
theorem closed_lineOf (text : List Char) (e : Dict) : Closed (text ++ lineOf F e) := by
  rw [Closed, (finished_lineOf text e).2]
  rfl

/-- The lines of several appends behind finished lines. -/
theorem eventsOfText_appends : ∀ {ws : List Dict}, (∀ w ∈ ws, Stamped w) → ∀ {text : List Char},
    finished text = text → unfinished text = [] →
    eventsOfText F (text ++ ws.flatMap (lineOf F)) = eventsOfText F text ++ ws.map (rereadEvent F)
  | [], _, text, _, _ => by
    rw [List.flatMap_nil, List.append_nil, List.map_nil, List.append_nil]
  | w :: ws, hws, text, hfinished, hunfinished => by
    obtain ⟨hnext, hopen⟩ := finished_lineOf (F := F) text w
    have hclosed : Closed text := by
      rw [Closed, hunfinished]
      rfl
    rw [List.flatMap_cons, ← List.append_assoc,
      eventsOfText_appends (fun v hv => hws v (List.mem_cons_of_mem _ hv)) hnext hopen, lineOf,
      eventsOfText_append (hws w List.mem_cons_self), if_pos hclosed, hfinished, List.append_assoc]
    rfl

/-- The events of which a file holds the lines behind a text, after appends. -/
def landed (text : List Char) (ws : List Dict) : List Dict := if Closed text then ws else ws.tail

theorem landed_subset {text : List Char} {ws : List Dict} {w : Dict} (h : w ∈ landed text ws) :
    w ∈ ws := by
  unfold landed at h
  split at h
  · exact h
  · exact List.mem_of_mem_tail h

theorem decodeUtf8_withLines : ∀ {ws : List Dict} {content : Bytes} {text : List Char},
    decodeUtf8 content = some text →
    decodeUtf8 (ws.foldl (withLine F) content) = some (text ++ ws.flatMap (lineOf F))
  | [], _, text, h => by
    rw [List.foldl_nil, List.flatMap_nil, List.append_nil]
    exact h
  | w :: ws, content, text, h => by
    have hline : decodeUtf8 (withLine F content w) = some (text ++ lineOf F w) :=
      decodeUtf8_append h _
    rw [List.foldl_cons, decodeUtf8_withLines hline, List.flatMap_cons, List.append_assoc]

/-- **Appends**: all events land behind a finished line, all but the first behind another one. -/
theorem contentEvents_appends {w : Dict} {ws : List Dict} (hws : ∀ e ∈ w :: ws, Stamped e)
    {content : Bytes} {text : List Char} (h : decodeUtf8 content = some text) :
    contentEvents F ((w :: ws).foldl (withLine F) content) =
      eventsOfText F (finished text) ++ (landed text (w :: ws)).map (rereadEvent F) := by
  obtain ⟨hnext, hopen⟩ := finished_lineOf (F := F) text w
  rw [contentEvents, decodeUtf8_withLines h, Option.getD_some, List.flatMap_cons, ← List.append_assoc,
    eventsOfText_appends (fun v hv => hws v (List.mem_cons_of_mem _ hv)) hnext hopen, lineOf,
    eventsOfText_append (hws w List.mem_cons_self), landed, List.append_assoc]
  congr 1
  split <;> rfl

theorem contentEvents_of_decode {content : Bytes} {text : List Char}
    (h : decodeUtf8 content = some text) :
    contentEvents F content = eventsOfText F (finished text) ++ eventsOfText F (unfinished text) := by
  rw [contentEvents, h, Option.getD_some, eventsOfText_finished]

/-- The content of a log in a directory. -/
def CiDir.log (d : CiDir) (file : String) : Bytes := (Assoc.get? d.logs file).getD []

/-- **One log** of a directory gets another content. -/
theorem events_setLog (d : CiDir) {file : String} (hfile : endsWith file ".jsonl" = true)
    (content : Bytes) : ∃ l m, d.events F = l ++ contentEvents F (d.log file) ++ m ∧
      (d.setLog file content).events F = l ++ contentEvents F content ++ m := by
  obtain ⟨l, m, hold, hnew⟩ := readByName_set (c := fun name => endsWith name ".jsonl")
    (fun p : String × Bytes => contentEvents F p.2) d.nodup hfile content
  refine ⟨l, m, ?_, hnew⟩
  rw [CiDir.events, hold, CiDir.log]
  cases Assoc.get? d.logs file with
  | none => rfl
  | some old => rfl

end SkCoord.Cmdb
