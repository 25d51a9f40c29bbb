import SipWitch.Membership

/-! `UString::unescape` on memory: the text is read from a pointer up to its terminator,
so what matters besides the result is where the pointer stops. -/
namespace SipWitch

namespace UString

/-- The loop of `unescape`, on the memory from `cp` on: its result and the memory from
`cp` on at the end, or nothing when it would read behind that memory. -/
def unescapeFrom (result : UString) : List UInt8 → Option (UString × List UInt8)
  | [] => none
  | c :: memory =>
    if c = 0 then some (result,c :: memory)
    else if c = 37 then
      match memory with
      | [] => none
      | high :: memory =>
        if high = 0 then some (result,high :: memory)
        else match memory with
          | [] => none
          | low :: memory =>
            if low = 0 then some (result,low :: memory)
            else unescapeFrom (result ++ [hexByte high low]) memory
    else unescapeFrom (result ++ [c]) memory

@[simp] theorem unescapeFrom_end : unescapeFrom result (0 :: beyond) = some (result,0 :: beyond) := by
  simp [unescapeFrom.eq_def]

theorem unescapeFrom_plain (more : c ≠ 0) (other : c ≠ 37) :
    unescapeFrom result (c :: memory) = unescapeFrom (result ++ [c]) memory := by
  rw [unescapeFrom.eq_def]
  simp [more,other]

theorem unescapeFrom_code (more : high ≠ 0) (more' : low ≠ 0) :
    unescapeFrom result (37 :: high :: low :: memory) =
      unescapeFrom (result ++ [hexByte high low]) memory := by
  rw [unescapeFrom.eq_def]
  simp [more,more']

theorem unescapeFrom_incomplete (front : UString)
    (short : front = [] ∨ ∃ high, high ≠ 0 ∧ front = [high]) :
    unescapeFrom result (37 :: (front ++ 0 :: beyond)) = some (result,0 :: beyond) := by
  rw [unescapeFrom.eq_def]
  rcases short with rfl | ⟨high,more,rfl⟩
  · simp
  · simp [more]

/-- On a text without a NUL the loop stops at the terminator, with the text that
`unescape` makes of it. -/
theorem unescapeFrom_terminated (result s : UString) (beyond : List UInt8) (free : 0 ∉ s) :
    unescapeFrom result (s ++ 0 :: beyond) = some (result ++ unescape s,0 :: beyond) := by
  induction s using unescape.induct generalizing result with
  | case1 => simp [unescape]
  | case2 high low rest ih =>
    simp only [List.mem_cons,not_or] at free
    obtain ⟨-,more,more',free⟩ := free
    rw [List.cons_append,List.cons_append,List.cons_append,
      unescapeFrom_code (Ne.symm more) (Ne.symm more'),ih _ free]
    simp [unescape]
  | case3 rest incomplete =>
    -- the terminator stands where one of the two digits should
    rcases rest with _ | ⟨high,_ | ⟨low,rest⟩⟩
    · simpa [unescape] using unescapeFrom_incomplete [] (.inl rfl)
    · have more : high ≠ 0 := by rintro rfl; simp at free
      simpa [unescape] using unescapeFrom_incomplete [high] (.inr ⟨high,more,rfl⟩)
    · exact absurd rfl (incomplete high low rest)
  | case4 c rest other ih =>
    simp only [List.mem_cons,not_or] at free
    rw [List.cons_append,unescapeFrom_plain (Ne.symm free.1) other,ih _ free.2,
      unescape.eq_def (c :: rest)]
    simp [other]

/-- Each byte of the result took one byte of the text or three. -/
theorem length_unescape_le (s : UString) : (unescape s).length ≤ s.length := by
  induction s using unescape.induct with
  | case1 => simp [unescape]
  | case2 high low rest ih =>
    simp only [unescape,if_true,List.length_cons]
    omega
  | case3 rest incomplete =>
    rcases rest with _ | ⟨high,_ | ⟨low,rest⟩⟩
    · simp [unescape]
    · simp [unescape]
    · exact absurd rfl (incomplete high low rest)
  | case4 c rest other ih =>
    rw [unescape.eq_def]
    simpa [other] using ih

/-- The characters that `escape` leaves no text with. -/
def reserved : List UInt8 := [32,38,60,62,64,58]

def isHex (c : UInt8) : Bool := (hexValue c).isSome

def TwoDigits (s : UString) : Prop :=
  ∃ high low rest, s = high :: low :: rest ∧ isHex high ∧ isHex low

/-- The escape of a character, as the digits that stand after its percent sign or as a
character that needs none. -/
theorem escaped_plain (c : UInt8) :
    (∃ high low, escaped c = [37,high,low] ∧ isHex high ∧ isHex low) ∨
      (escaped c = [c] ∧ c ∉ 37 :: reserved) := by
  simp only [escaped]
  repeat' split
  case isFalse.isFalse.isFalse.isFalse.isFalse.isFalse.isFalse =>
    refine .inr ⟨rfl,?_⟩
    simp only [reserved,List.mem_cons,List.not_mem_nil,or_false]
    tauto
  all_goals exact .inl ⟨_,_,rfl,rfl,rfl⟩

theorem isHex_plain (c : UInt8) (hex : isHex c) : c ∉ 0 :: 37 :: reserved := by
  revert hex
  simp only [isHex,hexValue,reserved,List.mem_cons,List.not_mem_nil,or_false]
  rintro hex (rfl | rfl | rfl | rfl | rfl | rfl | rfl | rfl) <;> simp at hex

theorem not_mem_escape {c : UInt8} (barred : c ∈ 0 :: reserved) (s : UString) (free : 0 ∉ s) :
    c ∉ escape s := by
  intro member
  obtain ⟨d,source,member⟩ := List.mem_flatMap.mp member
  have other : c ≠ 37 := by rintro rfl; simp [reserved] at barred
  rcases escaped_plain d with ⟨high,low,coded,hex,hex'⟩ | ⟨itself,plain⟩
  · have digits := isHex_plain high hex
    have digits' := isHex_plain low hex'
    rw [coded] at member
    simp only [List.mem_cons,List.not_mem_nil,or_false] at member
    rcases member with same | rfl | rfl
    · exact other same
    · exact digits (by simp only [List.mem_cons] at barred ⊢; tauto)
    · exact digits' (by simp only [List.mem_cons] at barred ⊢; tauto)
  · rw [itself,List.mem_singleton] at member
    rcases List.mem_cons.mp barred with rfl | barred
    · exact free (member ▸ source)
    · exact plain (List.mem_cons_of_mem _ (member ▸ barred))

/-- A percent sign in an escaped text is the first character of an escape. -/
theorem twoDigits_escape (s front back : UString) (split : escape s = front ++ 37 :: back) :
    TwoDigits back := by
  induction s generalizing front with
  | nil => simp [escape] at split
  | cons c rest ih =>
    rw [escape,List.flatMap_cons,← escape] at split
    rcases escaped_plain c with ⟨high,low,coded,hex,hex'⟩ | ⟨itself,plain⟩
    · have digits := isHex_plain high hex
      have digits' := isHex_plain low hex'
      rw [coded] at split
      rcases front with _ | ⟨a,_ | ⟨b,_ | ⟨d,front⟩⟩⟩
      · simp only [List.nil_append,List.cons_append,List.cons.injEq,true_and] at split
        exact ⟨high,low,escape rest,split.symm,hex,hex'⟩
      · simp_all
      · simp_all
      · simp only [List.cons_append,List.nil_append,List.cons.injEq] at split
        exact ih front split.2.2.2
    · rw [itself,List.singleton_append] at split
      rcases front with _ | ⟨a,front⟩
      · simp only [List.nil_append,List.cons.injEq] at split
        simp [split.1] at plain
      · exact ih front (List.cons.inj split).2

/-- An escaped text comes back, has no reserved character and only complete escapes; and
whatever text is read, the reading stops at its terminator with at most one byte for
each byte it took. -/
theorem unescape_escaped (s : UString) (free : 0 ∉ s) (beyond : List UInt8) :
    unescapeFrom [] (escape s ++ 0 :: beyond) = some (s,0 :: beyond) ∧
    (∀ c ∈ escape s, c ∉ reserved) ∧
    (∀ front back, escape s = front ++ 37 :: back → TwoDigits back) ∧
    ∃ result, unescapeFrom [] (s ++ 0 :: beyond) = some (result,0 :: beyond) ∧
      result.length ≤ s.length := by
  have free' : 0 ∉ escape s := not_mem_escape (by simp) s free
  refine ⟨?_,?_,twoDigits_escape s,unescape s,?_,length_unescape_le s⟩
  · rw [unescapeFrom_terminated [] _ beyond free',unescape_escape,List.nil_append]
  · intro c member barred
    exact not_mem_escape (List.mem_cons_of_mem _ barred) s free member
  · rw [unescapeFrom_terminated [] s beyond free,List.nil_append]

/-- A text with an incomplete escape at its end, and nothing behind its terminator. -/
theorem unescape_escaped_incomplete :
    unescapeFrom [] (escape [37,52,49,255,37,97] ++ [0]) = some ([37,52,49,255,37,97],[0]) ∧
    (∀ c ∈ escape [37,52,49,255,37,97], c ∉ reserved) ∧
    (∀ front back, escape [37,52,49,255,37,97] = front ++ 37 :: back → TwoDigits back) ∧
    ∃ result, unescapeFrom [] ([37,52,49,255,37,97] ++ [0]) = some (result,[0]) ∧ result.length ≤ 6 :=
  unescape_escaped [37,52,49,255,37,97] (by decide) []

end UString

end SipWitch
