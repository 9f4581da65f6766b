import SubutaiTray.Library.Lookups
import SubutaiTray.Qt.Text

/-!
`std::map` with texts as keys, in ascending order of the keys.
-/
namespace SubutaiTray

abbrev StdMap (V : Type) := Std.ExtTreeMap QString V

end SubutaiTray
