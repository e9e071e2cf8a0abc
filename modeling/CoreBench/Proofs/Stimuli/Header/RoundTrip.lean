import CoreBench.Proofs.Stimuli.Header.Layout

/-!
Headers read back. Writing and reading are defined apart from each other; here they meet.

What is proved:
  * `read_header_roundTrip`: the header of a case whose matrices have the size of its parameters gives the
    matrices back, whatever their elements are, if the section of the buffers is on one line; and the buffers
    come back as they were written exactly if the section, besides, does not hold what stands behind it in a
    declaration.
-/

namespace CoreBench.Stimuli.Header

open CoreBench.Text

/-- **A header is read back.** The first part needs no more of the section than that it is on one line; the
second one is exact for all sections. -/
theorem read_header_roundTrip (c : Case) (hpos : 1 ≤ c.params.size) (hmax : c.params.size ≤ maxSize)
    (ha : c.a.size = c.params.size) (hb : c.b.size = c.params.size)
    (he : c.expected.size = c.params.size) (sect : String) :
    ('\n' ∉ sect.toList →
      ∃ h, read (c.header sect).toList = .ok h ∧ h.size = c.params.size ∧ h.a = c.a ∧ h.b = c.b ∧
        h.expected = c.expected ∧ h.holds c = true) ∧
    ((∃ h, read (c.header sect).toList = .ok h ∧
        h.buffers = [(sect, "g_mA"), (sect, "g_mB"), (sect, "g_mC"), (sect, "g_mB_tmp")]) ↔
      '\n' ∉ sect.toList ∧ ¬ "\"))) int ".toList <:+: sect.toList) := by
  have hread := read_header hpos hmax rfl ha hb he sect
  have hnames : ∀ name ∈ workBuffers, '\n' ∉ name.toList := by decide
  constructor
  · intro hline
    obtain ⟨bs, hbs, -⟩ := readBuffers_declarations hline hnames
    rw [hbs] at hread
    exact ⟨_, hread, rfl, rfl, rfl, rfl, by simp [holds]⟩
  · constructor
    · rintro ⟨h, hok, hbuffers⟩
      rw [hok] at hread
      split at hread
      · cases hread
      · next bs hbs =>
        obtain rfl := Except.ok.inj hread
        -- One buffer with the section as it was written is enough: it has been read from a line.
        have hmem : (sect, "g_mA") ∈ bs := by
          rw [show bs = _ from hbuffers]
          exact List.mem_cons_self
        exact section_of_readBuffers hbs hmem
    · rintro ⟨hline, hamb⟩
      obtain ⟨bs, hbs, hmeant⟩ := readBuffers_declarations hline hnames
      rw [hbs] at hread
      exact ⟨_, hread, hmeant hamb⟩

/-- The least element, and a section that holds all but the end of what stands behind a section. -/
theorem read_header_roundTrip_least :
    let c : Case := ⟨⟨1, 1⟩, ⟨1, #[-2147483648], rfl⟩, ⟨1, #[1], rfl⟩, ⟨1, #[-2147483648], rfl⟩⟩
    (1 ≤ c.params.size ∧ c.params.size ≤ maxSize ∧ c.a.size = c.params.size ∧
      c.b.size = c.params.size ∧ c.expected.size = c.params.size ∧ '\n' ∉ "x\"))) int".toList) ∧
    (∃ h, read (c.header "x\"))) int").toList = .ok h ∧ h.holds c = true) ∧
    ∃ h, read (c.header "x\"))) int").toList = .ok h ∧
      h.buffers = [("x\"))) int", "g_mA"), ("x\"))) int", "g_mB"), ("x\"))) int", "g_mC"),
        ("x\"))) int", "g_mB_tmp")] := by
  intro c
  have h := read_header_roundTrip c (by decide) (by decide) rfl rfl rfl "x\"))) int"
  have hline : '\n' ∉ "x\"))) int".toList := by decide
  have hamb : ¬ "\"))) int ".toList <:+: "x\"))) int".toList := by
    rw [← occursIn_iff]
    decide
  refine ⟨⟨by decide, by decide, rfl, rfl, rfl, hline⟩, ?_, h.2.mpr ⟨hline, hamb⟩⟩
  obtain ⟨r, hr, -, -, -, -, hholds⟩ := h.1 hline
  exact ⟨r, hr, hholds⟩

end CoreBench.Stimuli.Header
