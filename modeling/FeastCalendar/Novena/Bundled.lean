import FeastCalendar.Novena.Basic

/-!
The novenas that come with the library.
-/

namespace FeastCalendar

namespace NovenaIndex

def sourcePage : Json := .str "https://catholicnovenaapp.com/list-of-all-novenas/"

def entry (id : Key) (title category : String) (start feast : Rule) (duration : Option Int) :
    Novena where
  id := id
  title := .str title
  feast := .rule feast
  start := some (.rule start)
  duration := match duration with
    | some days => .int days
    | none => .null
  category := .str category
  tags := [.str "Novena", .str category, .str title]
  source := sourcePage

def bundled : List Novena := [
  entry (.named "annunciation") "Annunciation" "Marian"
    (.fixed (.of 3) (.of 16)) (.fixed (.of 3) (.of 25)) (some 10),
  entry (.named "assumption") "Assumption" "Marian"
    (.fixed (.of 8) (.of 6)) (.fixed (.of 8) (.of 15)) (some 10),
  entry (.named "christ_the_king") "Christ the King" "Feast"
    (.relative (.named "christ_king") (-9) none .onOrAfter)
    (.anchor (.named "christ_king")) (some 10),
  entry (.named "christmas") "Christmas" "Feast"
    (.fixed (.of 12) (.of 16)) (.fixed (.of 12) (.of 25)) (some 10),
  entry (.named "corpus_christi") "Corpus Christi" "Feast"
    (.relative (.named "corpus_christi") (-8) none .onOrAfter)
    (.anchor (.named "corpus_christi")) none,
  { entry (.named "divine_mercy") "Divine Mercy" "Devotion"
    (.anchor (.named "good_friday")) (.anchor (.named "divine_mercy_sunday")) (some 10) with
    description := .str "Begins on Good Friday and ends on the Second Sunday of Easter." },
  { entry (.named "epiphany") "Epiphany" "Feast"
    (.fixed (.of 12) (.of 28)) (.fixed (.of 1) (.of 6)) (some 10) with
    notes := .str "Starts in the previous calendar year." },
  { entry (.named "holy_spirit") "Holy Spirit" "Feast"
    (.nthWeekdayAfter (.named "ascension_thursday") (.of 5) (.of 1))
    (.anchor (.named "pentecost")) (some 10) with
    description := .str "The first novena: from the Friday after Ascension to Pentecost." },
  entry (.named "immaculate_conception") "Immaculate Conception" "Marian"
    (.fixed (.of 11) (.of 29)) (.fixed (.of 12) (.of 8)) (some 10),
  { entry (.named "mary_mother_of_god") "Mary, Mother of God" "Marian"
    (.fixed (.of 12) (.of 23)) (.fixed (.of 1) (.of 1)) (some 10) with
    notes := .str "Starts in the previous calendar year." },
  { entry (.named "our_lady_of_guadalupe") "Our Lady of Guadalupe" "Marian"
    (.fixed (.of 12) (.of 3)) (.fixed (.of 12) (.of 12)) (some 10) with
    patronage := [.str "the Americas", .str "the unborn"] },
  { entry (.named "our_lady_of_lourdes") "Our Lady of Lourdes" "Marian"
    (.fixed (.of 2) (.of 2)) (.fixed (.of 2) (.of 11)) (some 10) with
    patronage := [.str "the sick"] },
  entry (.named "sacred_heart") "Sacred Heart of Jesus" "Feast"
    (.beforeFeast (.of 9) none) (.anchor (.named "sacred_heart")) (some 9),
  { entry (.named "saint_anthony_of_padua") "Saint Anthony of Padua" "Saint"
    (.fixed (.of 6) (.of 4)) (.fixed (.of 6) (.of 13)) (some 10) with
    patronage := [.str "lost things"] },
  { entry (.named "saint_joseph") "Saint Joseph" "Saint"
    (.fixed (.of 3) (.of 10)) (.fixed (.of 3) (.of 19)) (some 10) with
    patronage := [.str "workers", .str "fathers", .str "the universal Church"] },
  { entry (.named "saint_jude") "Saint Jude" "Saint"
    (.fixed (.of 10) (.of 19)) (.fixed (.of 10) (.of 28)) (some 10) with
    patronage := [.str "desperate causes"] },
  { entry (.named "saints_peter_and_paul") "Saints Peter and Paul" "Saint"
    (.fixed (.of 6) (.of 20)) (.fixed (.of 6) (.of 29)) none with
    notes := .str "Scraped start is one day early for a 9-day span; the computed start is used." },
  { entry (.named "saint_therese_of_lisieux") "Saint Thérèse of Lisieux" "Saint"
    (.fixed (.of 9) (.of 22)) (.fixed (.of 10) (.of 1)) (some 10) with
    patronage := [.str "missions", .str "florists"] }
]

end NovenaIndex

end FeastCalendar
