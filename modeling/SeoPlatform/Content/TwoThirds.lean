import SeoPlatform.Content.Analyze

namespace SeoPlatform.Content.TwoThirds

open SeoPlatform.Content.Analyze
open SeoPlatform.Foundation.Doubles
open SeoPlatform.Foundation.JsonValue
open SeoPlatform.Shared.Text

section Ratio

theorem matchRatio_eq : matchRatio = 6034823500676465 / 9007199254740992 := by decide +kernel

/-- A double reaches the ratio beyond the middle between the ratio and the double before. -/
theorem matchRatio_le_double_iff {x : Rat} (hpos : 0 < x) :
    matchRatio ≤ double x ↔ 12069647001352929 / 18014398509481984 < x := by
  have hodd : Odd (6034823500676465 : Int) := by decide
  have hiff := @le_nearest_iff_of_odd Rat _ _ _ _ 53 x 6034823500676465 (-53) hodd
    (by decide) (by decide) hpos
  have hlow : ((6034823500676465 : Int) : Rat) * 2 ^ (-53 : Int) = matchRatio := by
    rw [matchRatio_eq]
    norm_num
  have hmiddle : (((6034823500676465 : Int) : Rat) - 1 / 2) * 2 ^ (-53 : Int) =
      12069647001352929 / 18014398509481984 := by norm_num
  rwa [hlow, hmiddle] at hiff

theorem double_zero : double 0 = 0 := by decide +kernel

variable {terms declared : List String}

/-- In whole numbers, how many of the terms are enough. -/
theorem enough_iff (hterms : terms ≠ []) :
    enough terms declared = true ↔
      12069647001352929 * terms.length < 18014398509481984 * hits terms declared := by
  have hlength : (0 : Rat) < terms.length := by
    exact_mod_cast List.length_pos_iff.mpr hterms
  unfold enough
  rw [decide_eq_true_iff]
  rcases Nat.eq_zero_or_pos (hits terms declared) with hzero | hsome
  · rw [hzero, Nat.cast_zero, zero_div, double_zero, matchRatio_eq]
    refine iff_of_false (by norm_num) (by omega)
  · have hhits : (0 : Rat) < hits terms declared := by exact_mod_cast hsome
    rw [matchRatio_le_double_iff (div_pos hhits hlength), lt_div_iff₀ hlength]
    rw [div_mul_eq_mul_div, div_lt_iff₀ (by norm_num), mul_comm (hits terms declared : Rat)]
    exact_mod_cast Iff.rfl

end Ratio

section Pages

variable {unicode : Unicode} {page : Page} {keyword declared : String}

theorem targets_eq (hterms : words unicode keyword ≠ []) (hpage : page.declared = .ok declared) :
    targets unicode page keyword =
      .ok (enough (words unicode keyword) (words unicode declared)) := by
  unfold targets
  rw [if_neg hterms, hpage]
  rfl

/-- A page targets a keyword exactly when at least two thirds of its words occur in what
the page declares: this holds for every number of words that falls short of two thirds or
goes beyond the ratio, and for no other. -/
theorem targets_twoThirds_iff (hterms : words unicode keyword ≠ [])
    (hpage : page.declared = .ok declared) :
    (targets unicode page keyword = .ok true ↔
        2 * (words unicode keyword).length ≤
          3 * hits (words unicode keyword) (words unicode declared)) ↔
      3 * hits (words unicode keyword) (words unicode declared) <
          2 * (words unicode keyword).length ∨
        12069647001352929 * (words unicode keyword).length <
          18014398509481984 * hits (words unicode keyword) (words unicode declared) := by
  rw [targets_eq hterms hpage, Except.ok.injEq, enough_iff hterms]
  omega

end Pages

section Shoes

/-- A page that declares two words of three. -/
def shoes : Page where
  url := "https://shop.ir/shoes"
  title := .str "کفش مردانه"

theorem targets_twoThirds_iff_shoes :
    (targets plainUnicode shoes "کفش ورزشی مردانه" = .ok true ↔
        2 * (words plainUnicode "کفش ورزشی مردانه").length ≤
          3 * hits (words plainUnicode "کفش ورزشی مردانه")
            (words plainUnicode "کفش مردانه کفش مردانه ")) ↔
      3 * hits (words plainUnicode "کفش ورزشی مردانه")
            (words plainUnicode "کفش مردانه کفش مردانه ") <
          2 * (words plainUnicode "کفش ورزشی مردانه").length ∨
        12069647001352929 * (words plainUnicode "کفش ورزشی مردانه").length <
          18014398509481984 * hits (words plainUnicode "کفش ورزشی مردانه")
            (words plainUnicode "کفش مردانه کفش مردانه ") :=
  @targets_twoThirds_iff plainUnicode shoes "کفش ورزشی مردانه" "کفش مردانه کفش مردانه "
    (by decide +kernel) (by decide +kernel)

/-- Two words of the three are two thirds, and not enough. -/
theorem not_targets_shoes :
    words plainUnicode "کفش ورزشی مردانه" = ["کفش", "ورزشی", "مردانه"] ∧
      shoes.declared = .ok "کفش مردانه کفش مردانه " ∧
      2 * (words plainUnicode "کفش ورزشی مردانه").length ≤
        3 * hits (words plainUnicode "کفش ورزشی مردانه")
          (words plainUnicode "کفش مردانه کفش مردانه ") ∧
      targets plainUnicode shoes "کفش ورزشی مردانه" ≠ .ok true := by
  decide +kernel

end Shoes

end SeoPlatform.Content.TwoThirds
