namespace FeatureFilter.Text

/-- Every letter `A` to `Z` becomes its small form. -/
def lower (s : String) : String := .ofList (s.toList.map Char.toLower)

end FeatureFilter.Text
