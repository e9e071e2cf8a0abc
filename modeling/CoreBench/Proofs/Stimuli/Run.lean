import CoreBench.Proofs.Files.Tree
import CoreBench.Proofs.Session
import CoreBench.Proofs.Stimuli.Generation
import CoreBench.Proofs.Stimuli.Header.Check
import CoreBench.Stimuli.Run

/-!
Runs of the stimuli generator. A run is followed stage by stage: a case is drawn, its header is written to a file
and, if the configuration asks for it, read from there and checked.

What is proved:
  * `writeHeaderFile_ends`, `writeHeaderFile_refused`, `confirm_ends`: what writing a header and confirming it
    come to;
  * `run_refused`: a run whose parameters are refused leaves the files alone;
  * `run_ends`: what a run with a case and a file to write to comes to, and the files that it leaves;
  * `run_oblivious`: what any run comes to, and the files that it leaves, do not depend on the log;
  * `settled_header`: the header of a case is confirmed, or one of its lines is at fault;
  * `section_never_corrupts`: no section makes a run take a header for what it is not.
-/

namespace CoreBench.Stimuli

open CoreBench.Files CoreBench.Random CoreBench.Text Step

section Stages

variable {s : Session} {path sect : String} {c : Case} {t : Tree} {p : Place}

theorem writeHeaderFile_ends (hcreate : s.files.create path = .ok (t, p))
    (hfile : t.node? p = some (.file [])) :
    Ends (writeHeaderFile path c sect) s (.ok ())
      (t.put p (.file (octets (c.header sect)))) := by
  refine Ends.bind (Ends.mapError _ (Ends.create hcreate)) fun _ => ?_
  refine Ends.bind (Ends.mapError _ (Ends.append (Tree.append_file hfile))) fun _ => ?_
  refine Ends.bind (Ends.absolute path) fun _ => ?_
  exact Ends.note _

theorem writeHeaderFile_refused {e : FileError} (hcreate : s.files.create path = .error e) :
    Ends (writeHeaderFile path c sect) s (.error (.file e)) s.files := by
  unfold writeHeaderFile
  exact Ends.bind_error (Ends.mapError _ (Ends.create_error hcreate)) _

theorem readHeaderFile_ends {text : String} (hread : s.files.readText path = .ok text) :
    Ends (readHeaderFile path) s (Header.read text.toList) s.files := by
  have h := Ends.readText (s := s) path
  rw [hread] at h
  exact Ends.bind (Ends.mapError _ h) fun _ => Ends.ofExcept _

/-- What a header that has been read, or not, settles about a case. -/
def settled (path : String) (c : Case) (r : Except StimuliError Header) : Except StimuliError Unit :=
  match r with
  | .error e => .error e
  | .ok h => if h.holds c then checked path h else .error (.roundTrip path)

theorem confirm_ends {text : String} (hread : s.files.readText path = .ok text) :
    Ends (confirm path c) s (settled path c (Header.read text.toList)) s.files := by
  have h := readHeaderFile_ends hread
  cases hr : Header.read text.toList with
  | error e =>
    rw [hr] at h
    exact Ends.bind_error h _
  | ok header =>
    rw [hr] at h
    refine Ends.bind h fun events => ?_
    simp only [settled]
    split
    · have hchecked := Ends.ofExcept (s := ⟨s.files, events⟩) (checked path header)
      cases hc : checked path header with
      | error e =>
        rw [hc] at hchecked
        exact Ends.bind_error hchecked _
      | ok u =>
        rw [hc] at hchecked
        exact Ends.bind hchecked fun _ => Ends.note _
    · exact Ends.ofExcept (.error _)

end Stages

/-! ## Runs -/

section Runs

variable {entropy : Key} {c : Config} {case : Case} {s : Session} {t : Tree} {p : Place}

theorem drawCase_ends {k : Keystream} {params : Params}
    (hdraw : (Case.generate Keystream.next params k).1 = .ok case) :
    Ends (drawCase k params) s (.ok case) s.files := by
  unfold drawCase
  rw [hdraw]
  refine Ends.bind (Ends.ofExcept _) fun _ => ?_
  exact Ends.bind (Ends.note _) fun _ => Ends.pure case

theorem drawCase_refused {k : Keystream} {params : Params} {e : StimuliError}
    (hdraw : (Case.generate Keystream.next params k).1 = .error e) :
    Ends (drawCase k params) s (.error e) s.files := by
  unfold drawCase
  rw [hdraw]
  exact Ends.bind_error (Ends.ofExcept _) _

/-- Parameters are checked ahead of everything else. -/
theorem run_refused {e : StimuliError} (hinvalid : c.params.validate = .error e) :
    Ends (run entropy c) s (.error e) s.files := by
  have hparams : c.validParams = .error e := by rw [Config.validParams, hinvalid]
  rw [run, hparams]
  exact Ends.bind_error (Ends.ofExcept _) _

/-- A run with a case and a file to write to leaves the header of the case there, and what it comes to is what
the header settles, if the configuration asks for that. -/
theorem run_ends (hvalid : c.params.validate = .ok ())
    (hdraw : (Case.generate Keystream.next c.params (c.keystream entropy)).1 = .ok case)
    (hcreate : s.files.create c.output = .ok (t, p)) (hfile : t.node? p = some (.file [])) :
    Ends (run entropy c) s
      (if c.verify then
        (settled c.output case (Header.read (case.header c.sect).toList)).map fun _ => case
      else .ok case)
      (t.put p (.file (octets (case.header c.sect)))) := by
  have hparams : c.validParams = .ok c.params := by rw [Config.validParams, hvalid]
  unfold run
  rw [hparams]
  refine Ends.bind (Ends.ofExcept _) fun _ => ?_
  refine Ends.bind (Ends.note _) fun _ => ?_
  refine Ends.bind (drawCase_ends hdraw) fun _ => ?_
  refine Ends.bind (writeHeaderFile_ends hcreate hfile) fun events => ?_
  split
  · have hconfirm := confirm_ends (s := ⟨_, events⟩) (c := case)
      (Tree.readText_of_create hcreate hfile (case.header c.sect))
    cases hsettled : settled c.output case (Header.read (case.header c.sect).toList) with
    | error e =>
      rw [hsettled] at hconfirm
      exact Ends.bind_error hconfirm _
    | ok u =>
      rw [hsettled] at hconfirm
      exact Ends.bind hconfirm fun _ => Ends.pure case
  · exact Ends.pure case

end Runs

/-! ## Runs and the log -/

theorem drawCase_oblivious (k : Keystream) (p : Params) : Oblivious (drawCase k p) := by
  refine Oblivious.bind (Oblivious.ofExcept _) fun case => ?_
  exact Oblivious.bind (Oblivious.note _) fun _ => Oblivious.pure case

theorem writeHeaderFile_oblivious (path : String) (c : Case) (sect : String) :
    Oblivious (writeHeaderFile path c sect) := by
  refine Oblivious.bind (Oblivious.mapError _ (Oblivious.create path)) fun place => ?_
  refine Oblivious.bind (Oblivious.mapError _ (Oblivious.append path place _)) fun _ => ?_
  exact Oblivious.bind (Oblivious.absolute path) fun _ => Oblivious.note _

theorem confirm_oblivious (path : String) (c : Case) : Oblivious (confirm path c) := by
  have hread : Oblivious (readHeaderFile path) :=
    Oblivious.bind (Oblivious.mapError _ (Oblivious.readText path)) fun _ => Oblivious.ofExcept _
  refine Oblivious.bind hread fun h => ?_
  split
  · exact Oblivious.bind (Oblivious.ofExcept _) fun _ => Oblivious.note _
  · exact Oblivious.ofExcept (.error _)

theorem run_oblivious (entropy : Key) (c : Config) : Oblivious (run entropy c) := by
  refine Oblivious.bind (Oblivious.ofExcept _) fun p => ?_
  refine Oblivious.bind (Oblivious.note _) fun _ => ?_
  refine Oblivious.bind (drawCase_oblivious _ p) fun case => ?_
  refine Oblivious.bind (writeHeaderFile_oblivious _ case _) fun _ => ?_
  split
  · exact Oblivious.bind (confirm_oblivious _ case) fun _ => Oblivious.pure case
  · exact Oblivious.pure case

/-! ## Sections -/

theorem settled_of_holds {path : String} {c : Case} {h : Header} (hholds : h.holds c = true)
    (hsize : c.expected.size = c.params.size) (hproduct : c.a.multiply c.b = .ok c.expected) :
    settled path c (.ok h) = .ok () := by
  obtain ⟨hn, ha, hb, he⟩ : h.size = c.params.size ∧ h.a = c.a ∧ h.b = c.b ∧ h.expected = c.expected := by
    simpa [Header.holds] using hholds
  have hverify : h.verify = some (.ok ()) := by
    apply Header.verify_of_product
    · rw [he, hn, hsize]
    · rw [ha, hb, he, hproduct]
  simp only [settled, hholds, if_true, checked, hverify]
  rfl

/-- What the header of a case settles: nothing is wrong, or a line of it starts like a declaration and is none,
for which it takes a section of several lines. -/
theorem settled_header {c : Case} (hpos : 1 ≤ c.params.size) (hmax : c.params.size ≤ maxSize)
    (ha : c.a.size = c.params.size) (hb : c.b.size = c.params.size)
    (he : c.expected.size = c.params.size) (hproduct : c.a.multiply c.b = .ok c.expected)
    (path sect : String) :
    (settled path c (Header.read (c.header sect).toList) = .ok () ∨
      ∃ line, settled path c (Header.read (c.header sect).toList)
        = .error (.parse (.badBuffer line))) ∧
    ('\n' ∉ sect.toList → settled path c (Header.read (c.header sect).toList) = .ok ()) := by
  rcases Header.read_header_cases hpos hmax ha hb he sect with ⟨line, hline⟩ | ⟨h, hread, hholds⟩
  · rw [hline]
    refine ⟨Or.inr ⟨line, rfl⟩, fun hsect => ?_⟩
    obtain ⟨h, hread⟩ := Header.read_header_of_line hpos hmax ha hb he hsect
    rw [hline] at hread
    cases hread
  · rw [hread, settled_of_holds hholds he hproduct]
    exact ⟨Or.inl rfl, fun _ => rfl⟩

/-- **No section corrupts what is read back.** Whatever a section makes of the text, the header of a case is read
as one that holds the case, or not at all. So a run that checks its header ends with the case that it has
generated, as far as the keystream gives words to draw from and there is a regular file to write to; or with
a line at fault, and then the section was not on one line. -/
theorem section_never_corrupts :
    (∀ (c : Case) (sect : String), 1 ≤ c.params.size → c.params.size ≤ maxSize →
      c.a.size = c.params.size → c.b.size = c.params.size → c.expected.size = c.params.size →
      (∃ line, Header.read (c.header sect).toList = .error (.parse (.badBuffer line))) ∨
        ∃ h, Header.read (c.header sect).toList = .ok h ∧ h.holds c = true) ∧
    ∀ (entropy : Key) (c : Config) (seed : Nat) (s : Session) (t : Tree) (p : Place),
      c.seed = some seed → c.verify = true → c.params.validate = .ok () →
      (drawPairs Keystream.next c.params.range #[] #[] (c.params.size * c.params.size)
        (.ofSeed (UInt64.ofNat seed))).1.isSome = true →
      s.files.create c.output = .ok (t, p) → t.node? p = some (.file []) →
      ∃ case, (Case.generate Keystream.next c.params (.ofSeed (UInt64.ofNat seed))).1 = .ok case ∧
        ((outcome (run entropy c) s).1 = .ok case ∨
          ∃ line, (outcome (run entropy c) s).1 = .error (.parse (.badBuffer line))) ∧
        ('\n' ∉ c.sect.toList → (outcome (run entropy c) s).1 = .ok case) := by
  constructor
  · intro c sect hpos hmax ha hb he
    exact Header.read_header_cases hpos hmax ha hb he sect
  · intro entropy c seed s t p hseed hverify hvalid hdraws hcreate hfile
    have hstream : c.keystream entropy = .ofSeed (UInt64.ofNat seed) := by
      rw [Config.keystream, hseed]
    obtain ⟨hpos, hmax, -, -⟩ := Params.validate_eq_ok.mp hvalid
    rcases generate_cases fun _ => hdraws with ⟨e, hinvalid, -⟩ | ⟨-, case, hgenerate, hmeets⟩
    · rw [hvalid] at hinvalid
      cases hinvalid
    · obtain ⟨ha, hb, he⟩ := hmeets.sizes
      rw [← hmeets.params_eq] at hpos hmax ha hb he
      have hends := run_ends hvalid (hstream ▸ hgenerate) hcreate hfile
      obtain ⟨hsettled, hclean⟩ := settled_header hpos hmax ha hb he
        (multiply_of_generate hgenerate) c.output c.sect
      refine ⟨case, hgenerate, ?_, fun hsect => ?_⟩
      · rw [hends.eq, hverify, if_pos rfl]
        rcases hsettled with hok | ⟨line, hline⟩
        · rw [hok]
          exact Or.inl rfl
        · rw [hline]
          exact Or.inr ⟨line, rfl⟩
      · rw [hends.eq, hverify, if_pos rfl, hclean hsect]
        rfl

/-- A section that holds the array of another operand and the line of another size; and, on one line, one that
looks like the end of its own declaration. -/
theorem section_never_corrupts_hostile :
    let hostile := "x\nconst int m_a[] = \x7b9\x7d;\n#define SIZE 7"
    let small : Case := ⟨⟨1, 1⟩, ⟨1, #[-1], rfl⟩, ⟨1, #[-1], rfl⟩, ⟨1, #[1], rfl⟩⟩
    let c : Config :=
      { output := "out.h", size := 2, range := some 4, seed := some 7, sect := hostile, verify := true }
    let files := Tree.withDevices ["work"]
    let place := ["work", "out.h"]
    (1 ≤ small.params.size ∧ small.params.size ≤ maxSize ∧ small.a.size = small.params.size ∧
      small.b.size = small.params.size ∧ small.expected.size = small.params.size) ∧
    (c.seed = some 7 ∧ c.verify = true ∧ c.params.validate = .ok () ∧
      (drawPairs Keystream.next 4 #[] #[] (2 * 2) (.ofSeed 7)).1.isSome = true ∧
      files.create c.output = .ok (files.put place (.file []), place) ∧
      (files.put place (.file [])).node? place = some (.file []) ∧
      '\n' ∉ "\"))) int g_mA[SIZE][SIZE];".toList) ∧
    ((∃ line, Header.read (small.header hostile).toList = .error (.parse (.badBuffer line))) ∨
      ∃ h, Header.read (small.header hostile).toList = .ok h ∧ h.holds small = true) ∧
    ∀ entropy, ∃ case,
      ((outcome (run entropy c) ⟨files, []⟩).1 = .ok case ∨
        ∃ line, (outcome (run entropy c) ⟨files, []⟩).1 = .error (.parse (.badBuffer line))) ∧
      (outcome (run entropy { c with sect := "\"))) int g_mA[SIZE][SIZE];" }) ⟨files, []⟩).1
        = .ok case := by
  intro hostile small c files place
  have hvalid : c.params.validate = .ok () := rfl
  have hdraws : (drawPairs Keystream.next 4 #[] #[] (2 * 2) (.ofSeed 7)).1.isSome = true := by
    decide +kernel
  have hcreate : (Tree.withDevices ["work"]).create "out.h" =
      .ok ((Tree.withDevices ["work"]).put ["work", "out.h"] (.file []), ["work", "out.h"]) := by
    rfl
  have hfile : (files.put place (.file [])).node? place = some (.file []) := rfl
  have hline : '\n' ∉ "\"))) int g_mA[SIZE][SIZE];".toList := by decide
  refine ⟨⟨by decide, by decide, rfl, rfl, rfl⟩,
    ⟨rfl, rfl, hvalid, hdraws, hcreate, hfile, hline⟩,
    section_never_corrupts.1 small hostile (by decide) (by decide) rfl rfl rfl, fun entropy => ?_⟩
  obtain ⟨case, hcase, hr, -⟩ := section_never_corrupts.2 entropy c 7 ⟨files, []⟩ _ _ rfl rfl hvalid
    hdraws hcreate hfile
  obtain ⟨other, hother, -, hclean⟩ := section_never_corrupts.2 entropy
    { c with sect := "\"))) int g_mA[SIZE][SIZE];" } 7 ⟨files, []⟩ _ _ rfl rfl hvalid hdraws hcreate
    hfile
  obtain rfl := Except.ok.inj (hcase.symm.trans hother)
  exact ⟨case, hr, hclean hline⟩

end CoreBench.Stimuli
