import ProvideIndex.InMemory.World
import ProvideIndex.Proofs.Disk.AtomicWrite
import ProvideIndex.Proofs.Regenerate.ManifestPath

/-!
# The file of the manifest

A run names its files by paths, and two paths are told apart by their texts. On a disk, two texts
may lead to one place: a path can be spelled in many ways, and it can lead over a link. There the
manifest takes the place of the table, whatever the two paths look like.

* `exists_publishes`: a run with a manifest that ends with a report puts the table on its disk and
  then the manifest.
* `Publishes.kept_iff`: the table is left at its place exactly if the manifest has another one.
-/

namespace ProvideIndex

namespace InMemory

theorem state_answer_of_isLookup {request : Request} (h : request.isLookup = true) (disk : Disk) :
    (world.answer request disk).2 = disk := by
  cases request with
  | fileExists path => rfl
  | readText path => rfl
  | writeText path contents => cases h
  | runProgram program arguments => cases h
  | listFiles root =>
    change (answer (.listFiles root) disk).2 = disk
    rw [answer]
    cases disk.listFiles root <;> rfl

theorem answer_writeText {path contents : String} {disk next : Disk}
    {result : Except FileFault Unit} (h : disk.writeAtomic path contents = (result, next)) :
    world.answer (.writeText path contents) disk = (.inr (described result), next) := by
  simp only [world, World.reliable, answer, h]

/-- A text that was accepted has been put on the disk. -/
theorem writeAtomic_of_passage {path contents : String} {disk next : Disk}
    (h : Run.Passage world disk [⟨.writeText path contents, .ok ()⟩] next) :
    disk.writeAtomic path contents = (.ok (), next) := by
  cases h with
  | cons hAnswer hNil =>
    cases hNil
    cases hWritten : disk.writeAtomic path contents with
    | mk result after =>
      rw [answer_writeText hWritten] at hAnswer
      cases result with
      | error fault => cases (Prod.mk.inj hAnswer).1
      | ok =>
        obtain rfl : after = next := (Prod.mk.inj hAnswer).2
        rfl

end InMemory

namespace Regenerate

open Run Script

/-- The disks after the table has been written, and after the manifest has been written too. -/
structure Publishes (disk : Disk) (output path : String) (files : List Source.File)
    (middle final : Disk) : Prop where
  table : disk.writeAtomic output (TableText.render (.ofFiles files)) = (.ok (), middle)
  manifest : middle.writeAtomic path (Manifest.ofFiles files).text = (.ok (), final)

variable {disk middle final : Disk} {options : Options} {path output : String}
  {files : List Source.File}

/--
A run with a manifest that ends with a report has gathered files and put their table and then their
manifest on its disk; after that it starts programs at most.
-/
theorem exists_publishes {report : Report}
    (hDone : ((run (options.withManifest (some path))).execute InMemory.world disk).ending =
      .done report) :
    ∃ files middle final programs,
      ((gather options.anchor).execute InMemory.world disk).ending = .done files ∧
        Publishes disk options.output path files middle final ∧
        Passage InMemory.world final programs
          ((run (options.withManifest (some path))).execute InMemory.world disk).state ∧
        ∀ exchange ∈ programs, ∃ program arguments,
          exchange.request = .runProgram program arguments := by
  obtain ⟨files, hTable, hConclude, hExchanges, -⟩ := tabulate_of_done hDone
  obtain ⟨lookups, _, hGather, hFirst, -⟩ := course_tabulate (course_of_ending hTable)
  obtain ⟨programs, exit, hSecond, -, hPrograms, -⟩ := course_conclude (course_of_ending hConclude)
  have hPassage := passage_execute InMemory.world (run (options.withManifest (some path))) disk
  rw [hExchanges, hFirst, hSecond] at hPassage
  obtain ⟨middle, hUpToTable, hRest⟩ := passage_append.mp hPassage
  obtain ⟨before, hLookups, hTableWritten⟩ := passage_append.mp hUpToTable
  obtain ⟨final, hManifestWritten, hPassed⟩ := passage_append.mp hRest
  -- Until the table nothing but lookups is answered, and these leave the disk alone.
  obtain rfl : disk = before := (hLookups.eq_of_forall fun exchange hMem =>
    InMemory.state_answer_of_isLookup (isLookup_of_course_gather hGather exchange hMem)).symm
  have hGathered := gather_of_tabulate hTable
  have hPublishes : Publishes disk options.output path files middle final :=
    ⟨InMemory.writeAtomic_of_passage hTableWritten,
      InMemory.writeAtomic_of_passage hManifestWritten⟩
  exact ⟨files, middle, final, programs, hGathered, hPublishes, hPassed, hPrograms⟩

/--
The table of a run is left at its place exactly if the manifest has another one, however the two
paths are spelled.
-/
theorem Publishes.kept_iff (h : Publishes disk output path files middle final)
    (hTable : disk.TouchesOnly output (TableText.render (.ofFiles files)))
    (hManifest : middle.TouchesOnly path (Manifest.ofFiles files).text) :
    ∃ place second, middle.locate .entry output = .ok place ∧
      final.locate .entry path = .ok second ∧
      final.entryAt? second = some (.file (Manifest.ofFiles files).text.toUTF8) ∧
      (final.entryAt? place = some (.file (TableText.render (.ofFiles files)).toUTF8) ↔
        place ≠ second) := by
  obtain ⟨place, second, hPlace, hSecond, hText, hLeft⟩ :=
    Disk.entryAt?_of_successive h.table h.manifest hTable hManifest
  refine ⟨place, second, hPlace, hSecond, hText, ?_⟩
  rw [hLeft]
  by_cases hSame : place = second
  · rw [if_pos hSame]
    have hOther : ¬some (Entry.file (Manifest.ofFiles files).text.toUTF8) =
        some (.file (TableText.render (.ofFiles files)).toUTF8) := by
      intro hEq
      have hBytes := Entry.file.inj (Option.some.inj hEq)
      exact Manifest.text_ne_render _ _ (String.toByteArray_inj.mp hBytes)
    exact iff_of_false hOther fun hNe => hNe hSame
  · rw [if_neg hSame]
    exact iff_of_true rfl hSame

/-- A disk with a tree, and a link to the directory in which the table is put. -/
def linkedOutput : Disk where
  entries :=
    [(["closure"], .directory), (["closure", "goog"], .directory),
      (["closure", "goog", "base.js"], .file .empty), (["third_party"], .directory),
      (["third_party", "closure"], .directory), (["third_party", "closure", "goog"], .directory),
      (["third_party", "closure", "goog", "b.js"], .file "goog.provide('x');".toUTF8),
      (["gen"], .directory), (["latest"], .link "gen")]
  workingDirectory := []

/-- The two paths differ and lead to one place, and so the run ends well without a table. -/
example :
    let outcome := (run ⟨"/closure/goog/base.js", "/gen/out.go", none,
      some "/latest/out.go"⟩).execute InMemory.world linkedOutput
    outcome.ending = .done ⟨2, 1, 1, 0⟩ ∧
      (outcome.state.readText "/gen/out.go").toOption =
        some ("libraries:\n- path: third_party/closure/goog/b.js\n" ++
          "  target: //third_party/closure/library:b\n  provides:\n  - x\n  requires: []\n" ++
          "  test_only: false\n  raw: false\n") := by
  decide +kernel

end Regenerate

end ProvideIndex
