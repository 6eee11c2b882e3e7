import Stencil.Proofs.Template.Tokens

/-!
Where a template cannot be cut. A fault stands at an offset up to which the
template can be cut and from which no slot can be read. There may be several;
the one that is reported is the first.
-/
namespace Stencil
namespace Token

inductive Faulty (offset : Nat) : Text → TemplateFault → Prop
  | close (rest : Text) : Faulty offset ('}' :: '}' :: rest) (.unexpectedClose offset)
  | unterminated {inside : Text} (endless : ¬ HasPair '}' inside) :
      Faulty offset ('{' :: '{' :: inside) (.unterminated offset)
  | nested {body : Text} (rest : Text) (first : ¬ HasPair '}' (body ++ ['}']))
      (inner : HasPair '{' body) :
      Faulty offset ('{' :: '{' :: (body ++ '}' :: '}' :: rest)) (.nested offset)

def FaultAt (source : Text) (offset : Nat) (fault : TemplateFault) : Prop :=
  ∃ front back, source = front ++ back ∧ offset = Text.byteSize front ∧
    (∃ tokens, ofTemplate front = .ok tokens) ∧ Faulty offset back fault

theorem Faulty.offset_unique {offset other : Nat} {back behind : Text} {fault : TemplateFault}
    (here : Faulty offset back fault) (there : Faulty other behind fault) : offset = other := by
  cases here <;> cases there <;> rfl

theorem Faulty.fault_unique {offset : Nat} {back : Text} {fault other : TemplateFault}
    (first : Faulty offset back fault) (second : Faulty offset back other) : fault = other := by
  have ends {body rest : Text} : HasPair '}' (body ++ '}' :: '}' :: rest) :=
    hasPair_iff.mpr ⟨_, _, rfl⟩
  cases first with
  | close => cases second; rfl
  | unterminated endless =>
      cases second with
      | unterminated => rfl
      | nested => exact absurd ends endless
  | @nested body rest =>
      generalize same : '{' :: '{' :: (body ++ '}' :: '}' :: rest) = back at second
      cases second with
      | close => simp at same
      | unterminated endless =>
          obtain rfl := by simpa using same
          exact absurd ends endless
      | nested => rfl

/-- Up to the fault that stops the cutting there are canonical tokens. -/
theorem faulty_of_scan {offset : Nat} {content : Text} {fault : TemplateFault}
    (stopped : scan offset content = .error fault) :
    ∃ tokens back, content = rendered tokens ++ back ∧ Canonical tokens ∧
      Faulty (offset + Text.byteSize (rendered tokens)) back fault := by
  have scans := scans_scan offset content
  generalize scan offset content = result at scans stopped
  -- In front of a fault outside of any slot stands at most one literal.
  have outside {offset : Nat} {front back : Text} {fault : TemplateFault}
      (unopened : ¬ HasPair '{' front) (unclosed : ¬ HasPair '}' front)
      (faulty : Faulty (offset + Text.byteSize front) back fault) :
      ∃ tokens behind, front ++ back = rendered tokens ++ behind ∧ Canonical tokens ∧
        Faulty (offset + Text.byteSize (rendered tokens)) behind fault :=
    ⟨literals front, back, by rw [rendered_literals], canonical_text unopened unclosed,
      by rwa [rendered_literals]⟩
  induction scans generalizing fault with
  | text => simp at stopped
  | stray behind unopened first =>
      obtain rfl := Except.error.inj stopped
      rw [hasPair_concat, not_or] at first
      exact outside unopened first.1 (.close behind)
  | unterminated first unclosed endless =>
      obtain rfl := Except.error.inj stopped
      rw [hasPair_concat, not_or] at first
      exact outside first.1 unclosed (.unterminated endless)
  | nested rest first unclosed closing inner =>
      obtain rfl := Except.error.inj stopped
      rw [hasPair_concat, not_or] at first
      exact outside first.1 unclosed (.nested rest closing inner)
  | @slot offset before body rest result first unclosed closing flat tail ih =>
      rcases map_eq_error_iff.mp stopped with tailStopped
      rcases ih tailStopped with ⟨tokens, back, rfl, canonical, faulty⟩
      rw [hasPair_concat, not_or] at first closing
      refine ⟨literals before ++ .slot ⟨body, 0, none, none⟩ :: tokens, back, ?_, ?_, ?_⟩
      · simp [rendered_literals, written]
      · exact canonical_literals first.1 unclosed (fun _ => first.2)
          ⟨⟨flat, closing⟩, trivial, canonical⟩
      · simpa [rendered_literals, Nat.add_assoc] using faulty

-- A brace at the end of a text can make an opening pair one character earlier.
theorem exists_opening {front : Text} (unopened : ¬ HasPair '{' front) (inside : Text) :
    ∃ before between, front = before ++ between ∧ (between = [] ∨ between = ['{']) ∧
      ¬ HasPair '{' (before ++ ['{']) ∧
      front ++ '{' :: '{' :: inside = before ++ '{' :: '{' :: (between ++ inside) := by
  rcases exists_first_pair '{' front inside with
    ⟨before, between, after, rfl, first, same⟩
  have split : '{' :: '{' :: after = between ++ '{' :: '{' :: inside := by
    simpa using same
  rcases between with _ | ⟨c, _ | ⟨d, between⟩⟩
  · exact ⟨before, [], by simp, Or.inl rfl, first, by simp⟩
  · obtain rfl : '{' = c := by simpa using congrArg List.head? split
    exact ⟨before, ['{'], rfl, Or.inr rfl, first, by simp⟩
  · obtain ⟨rfl, rfl, -⟩ : '{' = c ∧ '{' = d ∧ _ := by simpa using split
    exact absurd (hasPair_iff.mpr ⟨before, between, rfl⟩) unopened

/-- A fault stops the cutting of the text, and it stands no later than the limit. -/
def StopsBy (offset : Nat) (content : Text) (limit : Nat) : Prop :=
  ∃ place behind fault, scan offset content = .error fault ∧ Faulty place behind fault ∧
    place ≤ limit

/-- Behind a text without pairs a fault stops the cutting, at the latest where it stands. -/
theorem stopsBy_text {front back : Text} {start : Nat} {fault : TemplateFault}
    (unopened : ¬ HasPair '{' front) (unclosed : ¬ HasPair '}' front)
    (faulty : Faulty start back fault) (offset : Nat) :
    StopsBy offset (front ++ back) (offset + Text.byteSize front) := by
  -- Neither kind of opening fault changes when one more brace stands in front of it.
  have closed {between inside : Text} (few : between = [] ∨ between = ['{']) :
      HasPair '}' (between ++ inside) ↔ HasPair '}' inside := by
    rcases few with rfl | rfl
    · rfl
    · simpa using hasPair_append_cons (by decide : '{' ≠ '}') [] inside
  cases faulty with
  | close rest =>
      rcases exists_first_pair '}' front rest with
        ⟨before, between, after, rfl, first, same⟩
      have unopenedBefore : ¬ HasPair '{' before :=
        fun pair => unopened (pair.mono (List.prefix_append _ _).isInfix)
      have stopped := scan_stray unopenedBefore first offset after
      rw [same] at stopped
      exact ⟨_, _, _, stopped, .close after, by simp⟩
  | @unterminated inside endless =>
      rcases exists_opening unopened inside with ⟨before, between, rfl, few, first, same⟩
      have unclosedBefore : ¬ HasPair '}' before :=
        fun pair => unclosed (pair.mono (List.prefix_append _ _).isInfix)
      have still : ¬ HasPair '}' (between ++ inside) := fun pair => endless ((closed few).mp pair)
      have stopped : scan offset _ = _ :=
        scan_of_scans (.unterminated first unclosedBefore still)
      rw [← same] at stopped
      exact ⟨_, _, _, stopped, .unterminated still, by simp⟩
  | @nested body rest closing inner =>
      rcases exists_opening unopened (body ++ '}' :: '}' :: rest) with
        ⟨before, between, rfl, few, first, same⟩
      have unclosedBefore : ¬ HasPair '}' before :=
        fun pair => unclosed (pair.mono (List.prefix_append _ _).isInfix)
      have still : ¬ HasPair '}' (between ++ body ++ ['}']) := by
        rw [List.append_assoc]
        exact fun pair => closing ((closed few).mp pair)
      have within : HasPair '{' (between ++ body) := inner.mono (List.suffix_append _ _).isInfix
      have stopped : scan offset _ = _ :=
        scan_of_scans (.nested rest first unclosedBefore still within)
      rw [List.append_assoc, ← same] at stopped
      exact ⟨_, _, _, stopped, .nested rest still within, by simp⟩

theorem StopsBy.slot {before : Text} {hole : Slot} (unopened : ¬ HasPair '{' before)
    (unclosed : ¬ HasPair '}' before) (precedes : before.getLast? ≠ some '{')
    (proper : (Token.slot hole).Proper) {offset limit : Nat} {rest : Text}
    (tail : StopsBy (offset + Text.byteSize before + 2 + Text.byteSize hole.body + 2) rest limit) :
    StopsBy offset (before ++ (Token.slot hole).written ++ rest) limit := by
  rcases tail with ⟨place, behind, fault, stopped, faulty, early⟩
  refine ⟨place, behind, fault, ?_, faulty, early⟩
  rw [scan_slot unopened unclosed precedes proper, stopped]
  rfl

/-- Behind canonical tokens a fault stops the cutting, at the latest where it stands. -/
theorem stopsBy_rendered {back : Text} {start : Nat} {fault : TemplateFault}
    (faulty : Faulty start back fault) : ∀ {tokens : List Token}, Canonical tokens →
    ∀ offset : Nat,
      StopsBy offset (rendered tokens ++ back) (offset + Text.byteSize (rendered tokens))
  | [], _, offset => stopsBy_text not_hasPair_nil not_hasPair_nil faulty offset
  | [.literal content], ⟨⟨_, unopened, unclosed⟩, _⟩, offset => by
      simpa using stopsBy_text unopened unclosed faulty offset
  | .literal _ :: .literal _ :: _, ⟨_, touching, _⟩, _ => touching.elim
  | .literal content :: .slot hole :: rest,
      ⟨⟨_, unopened, unclosed⟩, precedes, proper, _, canonical⟩, offset => by
      have stops : StopsBy offset (content ++ (Token.slot hole).written ++ _) _ :=
        (stopsBy_rendered faulty canonical _).slot unopened unclosed precedes proper
      simpa [Nat.add_assoc] using stops
  | .slot hole :: rest, ⟨proper, _, canonical⟩, offset => by
      have stops : StopsBy offset ([] ++ (Token.slot hole).written ++ _) _ :=
        (stopsBy_rendered faulty canonical _).slot not_hasPair_nil not_hasPair_nil (by simp) proper
      simpa [Nat.add_assoc] using stops

theorem FaultAt.offset_unique {source : Text} {offset other : Nat} {fault : TemplateFault}
    (here : FaultAt source offset fault) (there : FaultAt source other fault) :
    offset = other := by
  rcases here with ⟨_, _, -, -, -, faulty⟩
  rcases there with ⟨_, _, -, -, -, otherFaulty⟩
  exact faulty.offset_unique otherFaulty

/-- What is reported stands at an offset of its own. -/
theorem faultAt_of_stopped {source : Text} {fault : TemplateFault}
    (stopped : ofTemplate source = .error fault) : ∃ offset, FaultAt source offset fault := by
  rcases faulty_of_scan (map_eq_error_iff.mp stopped) with ⟨tokens, back, rfl, canonical, faulty⟩
  rw [Nat.zero_add] at faulty
  exact ⟨_, rendered tokens, back, rfl, rfl, ⟨_, ofTemplate_rendered canonical⟩, faulty⟩

/-- Where there is a fault, one is reported that stands no later. -/
theorem stopped_of_faultAt {source : Text} {offset : Nat} {fault : TemplateFault}
    (here : FaultAt source offset fault) :
    ∃ place first, ofTemplate source = .error first ∧ FaultAt source place first ∧
      place ≤ offset := by
  rcases here with ⟨front, back, rfl, rfl, ⟨tokens, cut⟩, faulty⟩
  rcases cut_of_ofTemplate cut with ⟨canonical, -, rfl⟩
  rcases stopsBy_rendered faulty canonical 0 with ⟨place, behind, first, stopped, there, early⟩
  have reported : ofTemplate (rendered tokens ++ back) = .error first :=
    map_eq_error_iff.mpr stopped
  rcases faultAt_of_stopped reported with ⟨least, least_at⟩
  have same : least = place := by
    rcases least_at with ⟨_, _, -, -, -, faulty⟩
    exact faulty.offset_unique there
  subst same
  exact ⟨least, first, reported, least_at, by simpa using early⟩

-- An offset tells where the text in front of it ends.
theorem split_unique {front back other behind : Text} (same : front ++ back = other ++ behind)
    (size : Text.byteSize front = Text.byteSize other) : front = other ∧ back = behind := by
  rcases List.append_eq_append_iff.mp same with ⟨between, rfl, rfl⟩ | ⟨between, rfl, rfl⟩
  · have empty : between = [] := by simpa [Text.byteSize_eq_zero_iff] using size
    simp [empty]
  · have empty : between = [] := by simpa [Text.byteSize_eq_zero_iff] using size
    simp [empty]

theorem FaultAt.unique {source : Text} {offset : Nat} {fault other : TemplateFault}
    (first : FaultAt source offset fault) (second : FaultAt source offset other) :
    fault = other := by
  rcases first with ⟨front, back, rfl, rfl, -, faulty⟩
  rcases second with ⟨before, behind, same, size, -, otherFaulty⟩
  obtain ⟨rfl, rfl⟩ := split_unique same size
  exact faulty.fault_unique otherFaulty

/-- A template cannot be cut exactly if it has a fault, and the one with the least
offset is reported. -/
theorem ofTemplate_eq_error_iff (source : Text) :
    ((∃ fault, ofTemplate source = .error fault) ↔
      ∃ offset fault, FaultAt source offset fault) ∧
    ∀ fault, ofTemplate source = .error fault ↔
      ∃ offset, FaultAt source offset fault ∧
        ∀ other second, FaultAt source other second → offset ≤ other := by
  have reported {fault : TemplateFault} (stopped : ofTemplate source = .error fault)
      {offset : Nat} (here : FaultAt source offset fault) {other : Nat} {second : TemplateFault}
      (there : FaultAt source other second) : offset ≤ other := by
    rcases stopped_of_faultAt there with ⟨place, first, firstStopped, firstAt, early⟩
    obtain rfl := Except.error.inj (stopped.symm.trans firstStopped)
    rwa [here.offset_unique firstAt]
  refine ⟨⟨?_, ?_⟩, fun fault => ⟨?_, ?_⟩⟩
  · rintro ⟨fault, stopped⟩
    rcases faultAt_of_stopped stopped with ⟨offset, here⟩
    exact ⟨offset, fault, here⟩
  · rintro ⟨offset, fault, here⟩
    rcases stopped_of_faultAt here with ⟨_, first, stopped, -, -⟩
    exact ⟨first, stopped⟩
  · intro stopped
    rcases faultAt_of_stopped stopped with ⟨offset, here⟩
    exact ⟨offset, here, fun _ _ there => reported stopped here there⟩
  · rintro ⟨offset, here, least⟩
    rcases stopped_of_faultAt here with ⟨place, first, stopped, firstAt, early⟩
    obtain rfl := Nat.le_antisymm (least place first firstAt) early
    rw [stopped, here.unique firstAt]

end Token
end Stencil
