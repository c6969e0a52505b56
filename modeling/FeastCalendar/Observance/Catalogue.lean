import FeastCalendar.Observance.Basic

/-!
The named celebrations of the year, each with the rule that places it.
-/

namespace FeastCalendar

structure Celebration where
  id : String
  title : String
  rank : Rank
  rule : RuleSlot
  /-- Without a colour of its own a celebration takes that of the season. -/
  color : Option String
deriving DecidableEq

namespace Catalogue

def onDay (id title : String) (rank : Rank) (month : Month) (day : MonthDay) (color : String) :
    Celebration :=
  ⟨id, title, rank, .rule (.fixed month day), some color⟩

def onAnchor (id title : String) (rank : Rank) (key : Key) (color : String) : Celebration :=
  ⟨id, title, rank, .rule (.anchor key), some color⟩

def fixedDays : List Celebration := [
  onDay "mary_mother_of_god" "Mary, Mother of God" .solemnity (.of 1) (.of 1) "white",
  onDay "basil_and_gregory" "Saints Basil the Great and Gregory Nazianzen"
    .memorial (.of 1) (.of 2) "white",
  onDay "epiphany" "Epiphany of the Lord" .solemnity (.of 1) (.of 6) "white",
  onDay "agnes" "Saint Agnes" .memorial (.of 1) (.of 21) "red",
  onDay "conversion_of_paul" "Conversion of Saint Paul" .feast (.of 1) (.of 25) "white",
  onDay "thomas_aquinas" "Saint Thomas Aquinas" .memorial (.of 1) (.of 28) "white",
  onDay "john_bosco" "Saint John Bosco" .memorial (.of 1) (.of 31) "white",
  onDay "presentation_of_the_lord" "Presentation of the Lord" .feast (.of 2) (.of 2) "white",
  onDay "blaise" "Saint Blaise" .optionalMemorial (.of 2) (.of 3) "red",
  onDay "our_lady_of_lourdes" "Our Lady of Lourdes" .optionalMemorial (.of 2) (.of 11) "white",
  onDay "chair_of_peter" "Chair of Saint Peter" .feast (.of 2) (.of 22) "white",
  onDay "patrick" "Saint Patrick" .optionalMemorial (.of 3) (.of 17) "white",
  onDay "joseph" "Saint Joseph, Spouse of the Blessed Virgin Mary"
    .solemnity (.of 3) (.of 19) "white",
  onDay "annunciation" "Annunciation of the Lord" .solemnity (.of 3) (.of 25) "white",
  onDay "mark" "Saint Mark, Evangelist" .feast (.of 4) (.of 25) "red",
  onDay "joseph_the_worker" "Saint Joseph the Worker" .optionalMemorial (.of 5) (.of 1) "white",
  onDay "philip_and_james" "Saints Philip and James, Apostles" .feast (.of 5) (.of 3) "red",
  onDay "our_lady_of_fatima" "Our Lady of Fatima" .optionalMemorial (.of 5) (.of 13) "white",
  onDay "matthias" "Saint Matthias, Apostle" .feast (.of 5) (.of 14) "red",
  onDay "visitation" "Visitation of the Blessed Virgin Mary" .feast (.of 5) (.of 31) "white",
  onDay "anthony_of_padua" "Saint Anthony of Padua" .memorial (.of 6) (.of 13) "white",
  onDay "nativity_of_john_the_baptist" "Nativity of Saint John the Baptist"
    .solemnity (.of 6) (.of 24) "white",
  onDay "peter_and_paul" "Saints Peter and Paul, Apostles" .solemnity (.of 6) (.of 29) "red",
  onDay "thomas" "Saint Thomas, Apostle" .feast (.of 7) (.of 3) "red",
  onDay "benedict" "Saint Benedict" .memorial (.of 7) (.of 11) "white",
  onDay "our_lady_of_mount_carmel" "Our Lady of Mount Carmel"
    .optionalMemorial (.of 7) (.of 16) "white",
  onDay "mary_magdalene" "Saint Mary Magdalene" .feast (.of 7) (.of 22) "white",
  onDay "james" "Saint James, Apostle" .feast (.of 7) (.of 25) "red",
  onDay "joachim_and_anne" "Saints Joachim and Anne" .memorial (.of 7) (.of 26) "white",
  onDay "ignatius_of_loyola" "Saint Ignatius of Loyola" .memorial (.of 7) (.of 31) "white",
  onDay "transfiguration" "Transfiguration of the Lord" .feast (.of 8) (.of 6) "white",
  onDay "dominic" "Saint Dominic" .memorial (.of 8) (.of 8) "white",
  onDay "clare" "Saint Clare" .memorial (.of 8) (.of 11) "white",
  onDay "maximilian_kolbe" "Saint Maximilian Kolbe" .memorial (.of 8) (.of 14) "red",
  onDay "assumption" "Assumption of the Blessed Virgin Mary" .solemnity (.of 8) (.of 15) "white",
  onDay "queenship_of_mary" "Queenship of the Blessed Virgin Mary"
    .memorial (.of 8) (.of 22) "white",
  onDay "bartholomew" "Saint Bartholomew, Apostle" .feast (.of 8) (.of 24) "red",
  onDay "monica" "Saint Monica" .memorial (.of 8) (.of 27) "white",
  onDay "augustine" "Saint Augustine" .memorial (.of 8) (.of 28) "white",
  onDay "nativity_of_mary" "Nativity of the Blessed Virgin Mary" .feast (.of 9) (.of 8) "white",
  onDay "exaltation_of_the_cross" "Exaltation of the Holy Cross" .feast (.of 9) (.of 14) "red",
  onDay "our_lady_of_sorrows" "Our Lady of Sorrows" .memorial (.of 9) (.of 15) "white",
  onDay "matthew" "Saint Matthew, Apostle and Evangelist" .feast (.of 9) (.of 21) "red",
  onDay "pio_of_pietrelcina" "Saint Pio of Pietrelcina" .memorial (.of 9) (.of 23) "white",
  onDay "vincent_de_paul" "Saint Vincent de Paul" .memorial (.of 9) (.of 27) "white",
  onDay "archangels" "Saints Michael, Gabriel and Raphael, Archangels"
    .feast (.of 9) (.of 29) "white",
  onDay "therese_of_lisieux" "Saint Thérèse of the Child Jesus" .memorial (.of 10) (.of 1) "white",
  onDay "guardian_angels" "Guardian Angels" .memorial (.of 10) (.of 2) "white",
  onDay "francis_of_assisi" "Saint Francis of Assisi" .memorial (.of 10) (.of 4) "white",
  onDay "our_lady_of_the_rosary" "Our Lady of the Rosary" .memorial (.of 10) (.of 7) "white",
  onDay "teresa_of_avila" "Saint Teresa of Jesus" .memorial (.of 10) (.of 15) "white",
  onDay "luke" "Saint Luke, Evangelist" .feast (.of 10) (.of 18) "red",
  onDay "simon_and_jude" "Saints Simon and Jude, Apostles" .feast (.of 10) (.of 28) "red",
  onDay "all_saints" "All Saints" .solemnity (.of 11) (.of 1) "white",
  onDay "all_souls" "Commemoration of All the Faithful Departed" .feast (.of 11) (.of 2) "violet",
  onDay "dedication_of_the_lateran" "Dedication of the Lateran Basilica"
    .feast (.of 11) (.of 9) "white",
  onDay "martin_of_tours" "Saint Martin of Tours" .memorial (.of 11) (.of 11) "white",
  onDay "cecilia" "Saint Cecilia" .memorial (.of 11) (.of 22) "red",
  onDay "andrew" "Saint Andrew, Apostle" .feast (.of 11) (.of 30) "red",
  onDay "immaculate_conception" "Immaculate Conception of the Blessed Virgin Mary"
    .solemnity (.of 12) (.of 8) "white",
  onDay "juan_diego" "Saint Juan Diego" .optionalMemorial (.of 12) (.of 9) "white",
  onDay "our_lady_of_guadalupe" "Our Lady of Guadalupe" .feast (.of 12) (.of 12) "white",
  onDay "lucy" "Saint Lucy" .memorial (.of 12) (.of 13) "red",
  onDay "john_of_the_cross" "Saint John of the Cross" .memorial (.of 12) (.of 14) "white",
  onDay "christmas" "Nativity of the Lord (Christmas)" .solemnity (.of 12) (.of 25) "white",
  onDay "stephen" "Saint Stephen, First Martyr" .feast (.of 12) (.of 26) "red",
  onDay "john_the_apostle" "Saint John, Apostle and Evangelist" .feast (.of 12) (.of 27) "white",
  onDay "holy_innocents" "Holy Innocents" .feast (.of 12) (.of 28) "red"]

def movableDays : List Celebration := [
  onAnchor "baptism_of_the_lord" "Baptism of the Lord"
    .feast (.named "baptism_of_the_lord") "white",
  onAnchor "ash_wednesday" "Ash Wednesday" .solemnity (.named "ash_wednesday") "violet",
  onAnchor "palm_sunday" "Palm Sunday of the Passion of the Lord"
    .sunday (.named "palm_sunday") "red",
  onAnchor "holy_thursday" "Holy Thursday (Evening Mass of the Lord's Supper)"
    .triduum (.named "holy_thursday") "white",
  onAnchor "good_friday" "Good Friday of the Passion of the Lord"
    .triduum (.named "good_friday") "red",
  onAnchor "holy_saturday" "Holy Saturday (Easter Vigil)" .triduum (.named "holy_saturday") "white",
  onAnchor "easter_sunday" "Easter Sunday of the Resurrection of the Lord"
    .triduum (.named "easter") "white",
  onAnchor "ascension" "Ascension of the Lord" .solemnity (.named "ascension_thursday") "white",
  onAnchor "pentecost" "Pentecost Sunday" .solemnity (.named "pentecost") "red",
  ⟨"mary_mother_of_the_church", "Blessed Virgin Mary, Mother of the Church", .memorial,
    .rule (.relative (.named "pentecost") 1 none .onOrAfter), some "white"⟩,
  onAnchor "trinity_sunday" "Most Holy Trinity" .solemnity (.named "trinity_sunday") "white",
  onAnchor "corpus_christi" "Most Holy Body and Blood of Christ"
    .solemnity (.named "corpus_christi") "white",
  onAnchor "sacred_heart" "Most Sacred Heart of Jesus" .solemnity (.named "sacred_heart") "white",
  onAnchor "immaculate_heart" "Immaculate Heart of the Blessed Virgin Mary"
    .memorial (.named "immaculate_heart") "white",
  onAnchor "christ_king" "Our Lord Jesus Christ, King of the Universe"
    .solemnity (.named "christ_king") "white",
  onAnchor "holy_family" "Holy Family of Jesus, Mary and Joseph"
    .feast (.named "holy_family") "white"]

def builtin : List Celebration := fixedDays ++ movableDays

end Catalogue

end FeastCalendar
